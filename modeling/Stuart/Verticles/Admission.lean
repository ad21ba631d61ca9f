/-
Who is connected to a node with local authentication.

The node asks `LocalAuthServiceImpl` about every CONNECT, and this looks the user up among the
accounts that the admin console changes meanwhile.  So whoever has a connection gave a user and the
password that this user had when the CONNECT was handled (`opened_with_password`): the password
recorded last before it, by whichever session of the console, and for no other user.  That a user is
deleted or gets another password later does not end the connection, and nothing that the clients do
on their connections opens one.
-/
import Stuart.Verticles.Connections
import Stuart.Verticles.Restart
import Stuart.Verticles.WebAdmin

namespace Stuart

open Lib StringUtils WebAdmin Connections

namespace Admission

/-- A node that runs, and its console. -/
structure System where
  console : Console
  node : Node

inductive Event where
  | request (session : ℕ) (now : ℤ) (request : Request)
  | timeout (session : ℕ)
  | connect (listener : Listener) (connect : Connect)
  | close (id : ℕ)
  /-- what clients and timers do on the connections -/
  | operate (operation : Broker.Operation)

/-- Connections are opened by `connect` and end by `close`. -/
def insideSession : Broker.Operation → Bool
  | .op (.connect _ _) | .op (.close _) => false
  | _ => true

/-- What the authentication service answers to a CONNECT. -/
def auth (k : Ciphers) (s : AccountService) (connect : Connect) : Bool :=
  LocalAuthService.auth k s (connect.auth.bind MqttAuth.username)
    (connect.auth.bind MqttAuth.password)

/-- An event that cannot happen changes nothing. -/
def perform (k : Ciphers) (s : System) : Event → Option WebAdmin.Response × System
  | .request session now request =>
      let result := s.console.perform k (.request session now request)
      (result.1, { s with console := result.2 })
  | .timeout session =>
      let result := s.console.perform k (.timeout session)
      (result.1, { s with console := result.2 })
  | .connect listener connect =>
      (none, { s with
        node := (s.node.step
          (.connect listener connect (auth k s.console.service connect))).getD s.node })
  | .close id => (none, { s with node := (s.node.step (.close id)).getD s.node })
  | .operate operation =>
      (none, if insideSession operation then
        { s with node := { s.node with broker := s.node.broker.perform operation } }
      else s)

/-- The ledger of the console, to which the connections are nothing. -/
def record (l : AccountLedger) : Event × Option WebAdmin.Response → AccountLedger
  | (.request session now request, response) =>
      l.record (.request session now request, response)
  | (.timeout session, response) => l.record (.timeout session, response)
  | (.connect _ _, _) => l
  | (.close _, _) => l
  | (.operate _, _) => l

variable {k : Ciphers} {s : System} {l : AccountLedger}

lemma matches_perform (hk : k.Injective) (h : Matches k s.console l) (event : Event) :
    Matches k (perform k s event).2.console (record l (event, (perform k s event).1)) := by
  cases event with
  | request session now request =>
      exact (WebAdmin.matches_perform hk h (.request session now request)).1
  | timeout session => exact (WebAdmin.matches_perform hk h (.timeout session)).1
  | connect listener connect => exact h
  | close id => exact h
  | operate operation =>
      simp only [perform, record]
      split_ifs
      · exact h
      · exact h

/-- A CONNECT is let through only with a password of the ledger. -/
lemma accepts_of_admits (hk : k.Injective) (h : Matches k s.console l)
    (hconfig : s.node.config.isAuthAllowAnonymous = false) {listener : Listener} {connect : Connect}
    (hadmits : s.node.Admits listener connect (auth k s.console.service connect)) :
    Accepts l.users (connect.auth.bind MqttAuth.username)
      (connect.auth.bind MqttAuth.password) := by
  rw [← auth_iff hk h.service]
  have hnot : s.node.config.handleEndpoint (s.node.limited listener) connect ≠ .accept := by
    simp only [ConnectConfig.handleEndpoint, hconfig, Bool.false_eq_true, if_false]
    split_ifs <;> simp
  obtain ⟨-, hanswer⟩ := hadmits.resolve_left hnot
  by_contra hauth
  have hfalse : auth k s.console.service connect = false := Bool.eq_false_iff.2 hauth
  rw [hfalse] at hanswer
  cases hanswer

lemma config_handleAccept (n : Node) (listener : Listener) (connect : Connect) :
    (n.handleAccept listener connect).config = n.config := by
  simp only [Node.handleAccept, Node.saveConnection]
  split_ifs <;> cases listener <;> rfl

lemma config_close {n n' : Node} {id : ℕ} (h : n.step (.close id) = some n') :
    n'.config = n.config := by
  simp only [Node.step] at h
  split at h
  · rename_i listener _ _
    obtain rfl := Option.some.inj h
    simp only [Node.handleClose, Node.deleteConnection]
    split
    · rfl
    · split_ifs <;> cases listener <;> rfl
  · cases h

/-- A CONNECT that is let through opens the next endpoint. -/
lemma owner_handleAccept {n : Node} (h : n.Inv) {listener : Listener} {connect : Connect}
    (hv : IdUtil.validateClientId connect.clientIdentifier = true) (id : ℕ) :
    (n.handleAccept listener connect).broker.owner id =
      if id = n.broker.endpoints.length then
        some (connect.clientIdentifier, connect.isCleanSession)
      else n.broker.owner id := by
  obtain ⟨hb, -⟩ := Node.saveConnection_spec
    { n with
      broker := (n.broker.handleAccept connect.clientIdentifier connect.isCleanSession).2
      listeners := n.listeners.put n.broker.endpoints.length listener }
    listener n.broker.endpoints.length hv
  rw [Node.handleAccept, hb, (h.broker.connect hv connect.isCleanSession).sameElse.owner,
    Broker.owner_addEndpoint]

lemma exists_client {operation : Broker.Operation} (h : insideSession operation = true) :
    ∃ clientId, operation.client = some clientId ∧ ¬operation.Connects clientId := by
  have hnot (clientId : Str) : ¬operation.Connects clientId := by
    rintro ⟨-, cleanSession, rfl⟩
    cases h
  cases operation with
  | op op =>
      cases op with
      | connect | close => cases h
      | _ => exact ⟨_, rfl, hnot _⟩
  | call clientId method => exact ⟨clientId, rfl, hnot clientId⟩
  | releaseQos2 clientId messageId => exact ⟨clientId, rfl, hnot clientId⟩

/-- The recorded connections are those of the wrappers, whatever is done on them. -/
lemma inv_operate {n : Node} (h : n.Inv) {operation : Broker.Operation}
    (hinside : insideSession operation = true) :
    Node.Inv { n with broker := n.broker.perform operation } := by
  obtain ⟨c, hclient, hnot⟩ := exists_client hinside
  have hend := h.broker.endpoint_perform hclient hnot
  refine ⟨h.broker.perform operation, fun clientId w' hw' => ?_, fun clientId conn hconn => ?_⟩
  · have hsome := (hend clientId).symm.trans (congrArg (Option.map Wrapper.endpoint) hw')
    obtain ⟨w, hw, heq⟩ := Option.map_eq_some_iff.1 hsome
    rw [← heq]
    exact h.recorded clientId w hw
  · obtain ⟨w, hw⟩ := h.registered clientId conn hconn
    have hsome := (hend clientId).trans (congrArg (Option.map Wrapper.endpoint) hw)
    obtain ⟨w', hw', -⟩ := Option.map_eq_some_iff.1 hsome
    exact ⟨w', hw'⟩

lemma owner_operate {n : Node} (h : n.Inv) {operation : Broker.Operation}
    (hinside : insideSession operation = true) (id : ℕ) :
    (n.broker.perform operation).owner id = n.broker.owner id := by
  obtain ⟨c, hclient, hnot⟩ := exists_client hinside
  exact (h.broker.sameElse_perform hclient hnot).owner id

/-- The endpoint was opened by a CONNECT of the run with a user and the password of the user at that
time. -/
def Opened (k : Ciphers) (start : System) (l : AccountLedger) (events : List Event) (id : ℕ)
    (client : Str × Bool) : Prop :=
  ∃ before listener connect later, events = before ++ .connect listener connect :: later ∧
    (after (perform k) start before).node.broker.endpoints.length = id ∧
    (connect.clientIdentifier, connect.isCleanSession) = client ∧
    Accepts ((history (perform k) start before).foldl record l).users
      (connect.auth.bind MqttAuth.username) (connect.auth.bind MqttAuth.password)

lemma Opened.concat {start : System} {events : List Event} {id : ℕ} {client : Str × Bool}
    (h : Opened k start l events id client) (event : Event) :
    Opened k start l (events ++ [event]) id client := by
  obtain ⟨before, listener, connect, later, rfl, hrest⟩ := h
  exact ⟨before, listener, connect, later ++ [event], by simp, hrest⟩

/-- What a run keeps: the console matches its ledger, the node keeps its invariant and its
configuration, and each endpoint was opened with a password. -/
structure Good (k : Ciphers) (start : System) (l : AccountLedger) (events : List Event)
    (s : System) : Prop where
  console : Matches k s.console ((history (perform k) start events).foldl record l)
  node : s.node.Inv
  config : s.node.config = start.node.config
  opened : ∀ id client, s.node.broker.owner id = some client →
    Opened k start l events id client

/-- After an event the connections are those of before, or were opened by the event. -/
lemma Good.concat {start s s' : System} {events : List Event} {event : Event}
    (h : Good k start l events s)
    (hmatches : Matches k s'.console ((history (perform k) start (events ++ [event])).foldl record l))
    (hnode : s'.node.Inv) (hconfig : s'.node.config = s.node.config)
    (howner : ∀ id client, s'.node.broker.owner id = some client →
      s.node.broker.owner id = some client ∨ Opened k start l (events ++ [event]) id client) :
    Good k start l (events ++ [event]) s' := by
  refine ⟨hmatches, hnode, hconfig.trans h.config, fun id client hend => ?_⟩
  rcases howner id client hend with hold | hopened
  · exact (h.opened id client hold).concat event
  · exact hopened

lemma Good.step (hk : k.Injective) {start s : System} {events : List Event}
    (h : Good k start l events s) (hs : after (perform k) start events = s)
    (hconfig : start.node.config.isAuthAllowAnonymous = false) (event : Event) :
    Good k start l (events ++ [event]) (perform k s event).2 := by
  have hmatches : Matches k (perform k s event).2.console
      ((history (perform k) start (events ++ [event])).foldl record l) := by
    rw [history_concat, List.foldl_append, hs]
    exact matches_perform hk h.console event
  cases event with
  | request session now request =>
      exact h.concat hmatches h.node rfl fun id client hend => Or.inl hend
  | timeout session => exact h.concat hmatches h.node rfl fun id client hend => Or.inl hend
  | connect listener connect =>
      simp only [perform, Node.step, Option.getD_some] at hmatches ⊢
      split_ifs with hadmits
      · have hv := Node.valid_of_admits hadmits
        refine h.concat hmatches (h.node.handleAccept hv) (config_handleAccept _ listener connect) ?_
        intro id client hend
        rw [owner_handleAccept h.node hv] at hend
        split_ifs at hend with hid
        · -- the endpoint that this CONNECT opens
          have haccepts := accepts_of_admits hk h.console (by rw [h.config, hconfig]) hadmits
          exact Or.inr ⟨events, listener, connect, [], rfl, (hs ▸ hid).symm, Option.some.inj hend,
            haccepts⟩
        · exact Or.inl hend
      · exact h.concat hmatches h.node rfl fun id client hend => Or.inl hend
  | close id =>
      simp only [perform] at hmatches ⊢
      cases hstep : s.node.step (.close id) with
      | none => exact h.concat hmatches h.node rfl fun id' client hend => Or.inl hend
      | some n' =>
          obtain ⟨endpoint, listener, -, -, hb, -⟩ := Node.step_close hstep
          refine h.concat hmatches (h.node.step hstep) (config_close hstep) ?_
          intro id' client hend
          rw [← Broker.owner_close, ← hb]
          exact Or.inl hend
  | operate operation =>
      simp only [perform] at hmatches ⊢
      split_ifs at hmatches ⊢ with hinside
      · refine h.concat hmatches (inv_operate h.node hinside) rfl ?_
        intro id client hend
        exact Or.inl ((owner_operate h.node hinside id).symm.trans hend)
      · exact h.concat hmatches h.node rfl fun id client hend => Or.inl hend

lemma good_run (hk : k.Injective) {start : System} (hconsole : Matches k start.console l)
    (hnode : start.node.Inv) (hempty : start.node.broker.endpoints = [])
    (hconfig : start.node.config.isAuthAllowAnonymous = false) (events : List Event) :
    Good k start l events (after (perform k) start events) := by
  induction events using List.reverseRecOn with
  | nil =>
      refine ⟨hconsole, hnode, rfl, fun id client howner => ?_⟩
      have hnone : start.node.broker.owner id = none := Broker.owner_of_le (by simp [hempty])
      exact absurd (hnone.symm.trans howner) (by simp)
  | append_singleton events event ih =>
      rw [after_concat]
      exact ih.step hk rfl hconfig event

/-- **Admission.**  Every connection that there ever is, and in particular that of every registered
session, was opened by a CONNECT with a user and the password that the ledger of the console had for
the user at that time. -/
theorem opened_with_password (hk : k.Injective) (nodeCache : PlainMap UUID Bool)
    (past : List Action) (config : ConnectConfig) (hconfig : config.isAuthAllowAnonymous = false)
    (connMaxLimit : Listener → ℤ) (b : Broker) (hb : b.Restarted) (events : List Event) :
    let start : System := ⟨consoleAfter k nodeCache past, .started config connMaxLimit b⟩
    let l := AccountLedger.ofHistory (historyOf k nodeCache past)
    let s := after (perform k) start events
    (∀ id endpoint, s.node.broker.endpoint id = some endpoint →
        Opened k start l events id (endpoint.clientIdentifier, endpoint.isCleanSession)) ∧
      ∀ clientId w, s.node.broker.wrappers.get clientId = some w →
        ∃ cleanSession, Opened k start l events w.endpoint (clientId, cleanSession) := by
  intro start l s
  have hgood : Good k start l events s := good_run hk (matches_run hk nodeCache past).1
    (Node.inv_started config connMaxLimit hb) hb.endpoints hconfig events
  refine ⟨fun id endpoint hend => hgood.opened id _ ?_, fun clientId w hw => ?_⟩
  · rw [Broker.owner, hend]
    rfl
  · exact ⟨_, hgood.opened _ _ ((hgood.node.broker.own clientId).live w hw).owner⟩

def sampleConnect : Connect := ⟨['c'], true, some ⟨some ['u'], some ['p', 'w']⟩⟩

/-- A user who was added before the node started; the client subscribes. -/
theorem opened_with_password_sample :
    ∃ client, Opened sampleCiphers
      ⟨consoleAfter sampleCiphers ((∅ : PlainMap UUID Bool).put 7 true) sampleActions,
        .started ⟨128, false, true⟩ (fun _ => 2) (Broker.initial sampleConfig 1)⟩
      (AccountLedger.ofHistory
        (historyOf sampleCiphers ((∅ : PlainMap UUID Bool).put 7 true) sampleActions))
      [.connect .tcp sampleConnect, .operate (.op (.subscribeTopic ['c'] ['t'] 0))] 0 client := by
  obtain ⟨endpoint, hend⟩ := Option.isSome_iff_exists.1
    (show ((after (perform sampleCiphers)
      ⟨consoleAfter sampleCiphers ((∅ : PlainMap UUID Bool).put 7 true) sampleActions,
        .started ⟨128, false, true⟩ (fun _ => 2) (Broker.initial sampleConfig 1)⟩
      [.connect .tcp sampleConnect, .operate (.op (.subscribeTopic ['c'] ['t']
        0))]).node.broker.endpoint 0).isSome = true by decide +kernel)
  exact ⟨_, (opened_with_password sampleCiphers_injective _ sampleActions ⟨128, false, true⟩
    rfl (fun _ => 2) (Broker.initial sampleConfig 1) (Broker.restarted_initial sampleConfig 1)
    [.connect .tcp sampleConnect, .operate (.op (.subscribeTopic ['c'] ['t'] 0))]).1 0 endpoint
    hend⟩

end Admission

end Stuart
