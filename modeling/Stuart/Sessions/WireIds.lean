/-
The id that is stored and the id on the wire.

The packet id is foretold from `lastMessageId` before the message is stored under it; the endpoint
stamps the packet when it is sent.  All the while the call holds `inflightCas`, so no other call
sends a message of QoS 1 or 2, and `dequeue` sends nothing.  But `publishMessage` sends a message of
QoS 0 itself without the flag, and such a PUBLISH takes an id too.  The PUBLISH carries the id that
the message is stored under exactly when the number of these is a multiple of the length of a cycle
(`wireIds_iff`).
-/
import Stuart.Sessions.Calls

namespace Stuart

open List Lib

namespace Calls

/-- What was put into the inflight map. -/
def Event.put : Event → Option (ℕ × ℤ)
  | .stored m messageId => some (m, messageId)
  | .direct _ _ | .polled _ _ | .published _ _ _ | .acknowledged _ => none

/-- The message that was stored last, and its key. -/
def lastStored (log : List Event) : Option (ℕ × ℤ) := (log.filterMap Event.put).getLast?

/-- A PUBLISH of a message of QoS 1 or 2 carries the id under which the message had been stored:
nothing else was stored in between. -/
def WireId (before : List Event) (event : Event) : Prop :=
  ∀ m qos messageId, event = .published m qos messageId → qos ≠ .atMostOnce →
    lastStored before = some (m, messageId)

/-- Between the reading of the id and the PUBLISH, the number of messages of QoS 0 that
`handleMessage` sent itself is a multiple of the length of a cycle. -/
def WireOk (r : Run) : Move Call → Prop
  | .call _ => True
  | .run index => ∀ caller m messageId before,
      r.tasks[index]? = some (.publish caller m messageId before) →
      r.shared.endpoint.isConnected = true → (r.shared.heap m).qos ≠ .atMostOnce →
        65535 ∣ r.shared.directs - before

/-! ### The log -/

variable {log : List Event} {event : Event}

lemma lastStored_append_of_put_eq_none (events : List Event)
    (h : ∀ event ∈ events, event.put = none) : lastStored (log ++ events) = lastStored log := by
  simp only [lastStored]
  rw [filterMap_append, filterMap_eq_nil_iff.2 h, append_nil]

lemma lastStored_stored (m : ℕ) (messageId : ℤ) :
    lastStored (log ++ [.stored m messageId]) = some (m, messageId) := by
  simp only [lastStored]
  rw [filterMap_append]
  exact getLast?_concat

/-! ### The foretold id -/

/-- The id was read `s.directs - before` PUBLISHes ago. -/
def Foretells (s : State) (messageId : ℤ) (before : ℕ) : Prop :=
  (1 ≤ messageId ∧ messageId ≤ MsgConst.MAX_MESSAGE_ID) ∧ before ≤ s.directs ∧
    nextId s.endpoint.lastMessageId = nextId^[s.directs - before] messageId

/-- What a call knows of the id that it has read, and of the message it has stored under it. -/
def Foretold (s : State) : Access → Prop
  | .setMessageId _ _ messageId before | .setRetry _ _ messageId before
  | .removeOld _ _ messageId before | .put _ _ messageId before => Foretells s messageId before
  | .saveTimeout _ m messageId before | .publishIsConnected _ m messageId before
  | .publish _ m messageId before =>
      Foretells s messageId before ∧ lastStored s.log = some (m, messageId)
  | _ => True

variable {s s' : State} {t u : Access}

/-- Only a call that holds the flag has read an id. -/
lemma foretold_of_outside (h : inside t = false) : Foretold s t := by
  cases t <;> trivial

/-- What the accesses of other calls leave as it is. -/
lemma Foretold.congr (h : Foretold s u)
    (hlast : s'.endpoint.lastMessageId = s.endpoint.lastMessageId)
    (hdirects : s'.directs = s.directs) (hstored : lastStored s'.log = lastStored s.log) :
    Foretold s' u := by
  have hid : ∀ messageId before, Foretells s messageId before → Foretells s' messageId before := by
    intro messageId before
    simp only [Foretells]
    rw [hlast, hdirects]
    exact id
  cases u
  all_goals first
    | exact hid _ _ h
    | exact ⟨hid _ _ h.1, hstored.trans h.2⟩
    | trivial

/-- One more message of QoS 0 is sent. -/
lemma Foretold.direct (h : Foretold s u) (m : ℕ) (everPublished : Bool) (messageId : ℤ) :
    Foretold (s.sent m everPublished (.direct m messageId)) u := by
  have hdirects : (s.sent m everPublished (.direct m messageId)).directs = s.directs + 1 := by
    simp only [State.directs, State.sent]
    rw [countP_append]
    rfl
  have hid : ∀ messageId' before, Foretells s messageId' before →
      Foretells (s.sent m everPublished (.direct m messageId)) messageId' before := by
    rintro messageId' before ⟨hrange, hle, hnext⟩
    refine ⟨hrange, by omega, ?_⟩
    -- the counter and the number of direct messages go up together
    show nextId (nextId s.endpoint.lastMessageId) = _
    rw [hdirects, Nat.succ_sub hle, Function.iterate_succ_apply', hnext]
  have hstored : lastStored (s.sent m everPublished (.direct m messageId)).log =
      lastStored s.log := lastStored_append_of_put_eq_none _ (by simp [Event.put])
  cases u
  all_goals first
    | exact hid _ _ h
    | exact ⟨hid _ _ h.1, hstored.trans h.2⟩
    | trivial

/-- An access of another call, which is outside if this one is inside. -/
lemma foretold_other (h : Foretold s u) (hout : inside t = true → inside u = false) :
    Foretold (exec s t).1 u := by
  by_cases hin : inside t = true
  · exact foretold_of_outside (hout hin)
  · cases t
    case sendPublish m =>
      rw [exec_sendPublish]
      split_ifs
      · exact h.direct m _ _
      · exact h
    -- acknowledgements are neither stored nor direct messages
    case remove messageId =>
      have hacks : ∀ event ∈ (s.inflights.get messageId).toList.map Event.acknowledged,
          event.put = none ∧ event.isDirect = false := by
        intro event hevent
        obtain ⟨m, -, rfl⟩ := mem_map.1 hevent
        exact ⟨rfl, rfl⟩
      refine h.congr rfl ?_ (lastStored_append_of_put_eq_none _ fun event he => (hacks event he).1)
      show (s.log ++ _).countP Event.isDirect = s.log.countP Event.isDirect
      have hzero : ((s.inflights.get messageId).toList.map Event.acknowledged).countP
          Event.isDirect = 0 := countP_eq_zero.2 fun event he => by simp [(hacks event he).2]
      rw [countP_append, hzero, Nat.add_zero]
    case publishRelease old =>
      dsimp only [exec]
      simp only [MqttEndpoint.publishRelease]
      split_ifs
      · exact h.congr rfl rfl rfl
      · exact h
    all_goals try dsimp only [exec]
    all_goals try split_ifs
    all_goals first
      | exact h
      | exact h.congr rfl rfl rfl
      | exact absurd rfl hin

/-- An access of the call itself. -/
lemma foretold_exec (h : Foretold s t) (hr : s.endpoint.InRange) :
    Foretold (exec s t).1 (exec s t).2 := by
  have hcaller : ∀ (s : State) (m : ℕ) (result : ℤ) (caller : Caller),
      Foretold s (noMessageId m caller) ∧ Foretold s (afterRelease result caller) := by
    intro s m result caller
    cases caller
    case inflight =>
      refine ⟨trivial, ?_⟩
      simp only [afterRelease, afterHandle]
      split_ifs <;> trivial
    all_goals exact ⟨trivial, trivial⟩
  cases t
  case nextIsConnected caller m =>
    dsimp only [exec]
    split_ifs
    · trivial
    · exact (hcaller s m 0 caller).1
  case nextLastMessageId caller m =>
    dsimp only [exec]
    split_ifs
    · refine ⟨nextId_range hr, le_rfl, ?_⟩
      rw [Nat.sub_self]
      rfl
    · exact (hcaller s m 0 caller).1
  case setMessageId caller m messageId before =>
    have h' : Foretells (s.modify m fun message => { message with messageId := messageId })
      messageId before := h
    cases caller <;> exact h'
  case put caller m messageId before =>
    obtain ⟨hrange, hle, hnext⟩ := h
    have hdirects : (exec s (.put caller m messageId before)).1.directs = s.directs := by
      show (s.log ++ _).countP Event.isDirect = s.log.countP Event.isDirect
      rw [countP_append]
      rfl
    -- what is noted is no direct message, so the id is foretold as before
    refine ⟨⟨hrange, by omega, ?_⟩, lastStored_stored m messageId⟩
    rw [hdirects]
    exact hnext
  case publish caller m messageId before =>
    rw [exec_publish]
    split_ifs <;> trivial
  case release caller result => exact (hcaller _ 0 result caller).2
  case sendPublish m =>
    rw [exec_sendPublish]
    split_ifs <;> trivial
  case polledPublish m =>
    rw [exec_polledPublish]
    split_ifs <;> trivial
  case addExt m locked =>
    dsimp only [exec]
    simp only [afterHandle]
    split_ifs <;> trivial
  case poll =>
    dsimp only [exec]
    cases s.queue.items with
    | nil => trivial
    | cons m rest =>
        dsimp only
        split_ifs <;> trivial
  case publishIsConnected caller m messageId before =>
    dsimp only [exec]
    split_ifs
    · exact h
    · trivial
  case pubrecGet messageId | retryGet messageId =>
    dsimp only [exec]
    cases s.inflights.get messageId <;> trivial
  all_goals try dsimp only [exec, stop]
  all_goals try split_ifs
  all_goals exact h

/-! ### Runs -/

/-- Every call knows its id. -/
structure Reads (r : Run) : Prop where
  exclusive : Exclusive r
  inRange : r.shared.endpoint.InRange
  foretold : ∀ t ∈ r.tasks, Foretold r.shared t

lemma Reads.step {r r' : Run} (h : Reads r) {move : Move Call}
    (hstep : Calls.step r move = some r') : Reads r' := by
  have hexclusive := h.exclusive.step hstep
  cases move with
  | call call =>
      obtain rfl := Option.some.inj hstep
      obtain ⟨-, -, -, hlog, -, hlast⟩ := frame_start call r.shared
      refine ⟨hexclusive, ?_, fun t ht => ?_⟩
      · simp only [MqttEndpoint.InRange]
        rw [hlast]
        exact h.inRange
      · rcases mem_append.1 ht with ht | ht
        · refine (h.foretold t ht).congr hlast ?_ (by rw [hlog])
          simp only [State.directs]
          rw [hlog]
        · obtain rfl := mem_singleton.1 ht
          exact foretold_of_outside (inside_start call r.shared).2
  | run index =>
      obtain ⟨t, ht, rfl⟩ := Pool.step_run hstep
      refine ⟨hexclusive, inRange_exec h.inRange t, ?_⟩
      exact h.exclusive.forall_set ht h.foretold
        (foretold_exec (h.foretold t (mem_of_getElem? ht)) h.inRange)
        fun u hu hout => foretold_other hu hout

/-- Only the PUBLISH of a message that was stored matters. -/
lemma wireId_of_notes (hquiet : ∀ caller m messageId before,
    t = .publish caller m messageId before → s.endpoint.isConnected = false) :
    ∀ event ∈ notes s t, ∀ before, WireId before event := by
  rintro event hevent before m qos messageId rfl
  cases t
  case publish caller m' messageId' before' =>
    simp only [notes] at hevent
    rw [hquiet caller m' messageId' before' rfl] at hevent
    cases hevent
  all_goals unfold notes at hevent
  all_goals try split_ifs at hevent
  all_goals simp at hevent

/-- A PUBLISH carries the foretold id after a whole number of cycles. -/
lemma Foretells.next_eq_iff {messageId : ℤ} {before : ℕ} (h : Foretells s messageId before) :
    nextId s.endpoint.lastMessageId = messageId ↔ 65535 ∣ s.directs - before := by
  rw [h.2.2]
  exact nextId_iterate_eq_self_iff h.1 _

/-- The PUBLISH of a stored message is the only step that matters, and there the condition is
exact. -/
lemma Reads.wireId_step {r r' : Run} (h : Reads r) {move : Move Call}
    (hstep : Calls.step r move = some r') :
    Allowed WireId r'.shared.log ↔ Allowed WireId r.shared.log ∧ WireOk r move := by
  cases move with
  | call call =>
      obtain rfl := Option.some.inj hstep
      obtain ⟨-, -, -, hlog, -⟩ := frame_start call r.shared
      rw [hlog]
      exact (and_iff_left trivial).symm
  | run index =>
      obtain ⟨t, ht, rfl⟩ := Pool.step_run hstep
      dsimp only
      rw [log_exec]
      by_cases hpublish : ∃ caller m messageId before, t = .publish caller m messageId before ∧
        r.shared.endpoint.isConnected = true
      · obtain ⟨caller, m, messageId, before, rfl, hc⟩ := hpublish
        dsimp only [notes]
        rw [if_pos hc, allowed_concat]
        refine and_congr_right fun _ => ?_
        -- the message was stored last under the foretold id, and the packet carries the next one
        obtain ⟨hforetells, hstored⟩ := h.foretold _ (mem_of_getElem? ht)
        constructor
        · intro hid caller' m' messageId' before' ht' _ hqos
          obtain ⟨rfl, rfl, rfl, rfl⟩ : caller = caller' ∧ m = m' ∧ messageId = messageId' ∧
            before = before' := by simpa using ht.symm.trans ht'
          have hsame := hstored.symm.trans (hid m _ _ rfl hqos)
          exact hforetells.next_eq_iff.1 (Prod.mk.inj (Option.some.inj hsame)).2.symm
        · intro hok m' qos messageId' hevent hqos
          obtain ⟨rfl, rfl, rfl⟩ := Event.published.inj hevent
          rw [hforetells.next_eq_iff.2 (hok caller m messageId before ht hc hqos)]
          exact hstored
      · have hquiet : ∀ caller m messageId before, t = .publish caller m messageId before →
            r.shared.endpoint.isConnected = false := by
          rintro caller m messageId before rfl
          exact Bool.eq_false_iff.2 fun hc => hpublish ⟨caller, m, messageId, before, rfl, hc⟩
        rw [allowed_append (wireId_of_notes hquiet)]
        refine (and_iff_left ?_).symm
        intro caller m messageId before ht' hc
        obtain rfl := Option.some.inj (ht.symm.trans ht')
        exact absurd ⟨caller, m, messageId, before, rfl, hc⟩ hpublish

/-- **The id on the wire is the stored one exactly as long as no message of QoS 0 comes in
between.**  For every interleaving of any calls: every PUBLISH of a message of QoS 1 or 2 carries
the id under which the message had just been stored if and only if at every such PUBLISH the number
of messages of QoS 0 that were sent outside the flag since the id was read is a multiple of
65535. -/
theorem wireIds_iff (config : Config) (endpoint : MqttEndpoint) (hr : endpoint.InRange)
    (moves : List (Move Call)) (r : Run) (hrun : run step (init config endpoint) moves = some r) :
    Allowed WireId r.shared.log ↔ AllSteps step WireOk (init config endpoint) moves := by
  have hinit : Reads (init config endpoint) :=
    ⟨exclusive_init config endpoint, hr, fun t ht => absurd ht not_mem_nil⟩
  have hempty : Allowed WireId (init config endpoint).shared.log := allowed_nil
  rw [holds_iff_allSteps (I := Reads) (G := fun r => Allowed WireId r.shared.log) (P := WireOk)
    (fun u move u' hu hstep => hu.step hstep) (fun u move u' hu hstep => hu.wireId_step hstep)
    hinit hrun]
  exact and_iff_right hempty

/-- A message that is sent and then sent again. -/
def retriedMoves : List (Move Call) :=
  [.call (.publishMessage sampleMessage .atLeastOnce)] ++ replicate 14 (.run 0) ++
    [.call (.retry 1)] ++ replicate 16 (.run 1)

theorem wireIds_iff_retried :
    Allowed WireId ((run step (init sampleConfig sampleEndpoint) retriedMoves).get
      (by decide)).shared.log ↔
        AllSteps step WireOk (init sampleConfig sampleEndpoint) retriedMoves :=
  wireIds_iff sampleConfig sampleEndpoint ⟨by decide, by decide⟩ retriedMoves _
    (Option.some_get _).symm

/-- A message of QoS 0 takes the id that was foretold for a message of QoS 1. -/
theorem not_wireIds :
    ¬∀ (config : Config) (endpoint : MqttEndpoint), endpoint.isConnected = true →
      endpoint.InRange → ∀ (moves : List (Move Call)) (r : Run),
        run step (init config endpoint) moves = some r → Allowed WireId r.shared.log := by
  intro h
  have hrun : (run step (init sampleConfig sampleEndpoint)
      ([.call (.publishMessage sampleMessage .atLeastOnce)] ++ replicate 9 (.run 0) ++
        [.call (.publishMessage sampleMessage .atMostOnce), .run 1, .run 1] ++
        replicate 3 (.run 0))).map (fun r => r.shared.log) =
      some [.stored 0 1, .direct 1 1, .published 0 .atLeastOnce 2] := by decide
  obtain ⟨r, hr, hlog⟩ := Option.map_eq_some_iff.1 hrun
  have hid := h sampleConfig sampleEndpoint rfl ⟨by decide, by decide⟩ _ r hr
    [.stored 0 1, .direct 1 1] (.published 0 .atLeastOnce 2) [] hlog
  have hsame : some ((0 : ℕ), (1 : ℤ)) = some (0, 2) := hid 0 .atLeastOnce 2 rfl (by decide)
  exact absurd hsame (by decide)

end Calls

end Stuart
