/-
Whether a queued message is left behind.

A call that has put a message into the queue, or has made room in the window, goes on to `dequeue`.
There it gives up at once if another call holds `queueCas`.  That one looks at the queue and the
window before it leaves its loop, but it gives the flag back only afterwards; in between nobody
will look, and a call that gives up then is a wake-up that is lost.  `pending` are the calls that
have still to look, or are certain to try `queueCas` themselves.  As long as a call gives up only
when nothing is to be done or another call is pending, every state in which no call is in progress
is a flushed one (`flushed_run`).
-/
import Stuart.Sessions.Calls

namespace Stuart

open List Lib

namespace Calls

/-- There is nothing to send, or no room. -/
def Flushed (s : State) : Prop := s.queue.items = [] ∨ s.isInflightFull = true

instance (s : State) : Decidable (Flushed s) := inferInstanceAs (Decidable (_ ∨ _))

/-- The part from `nextMessageId` to the release, if `dequeue` runs it. -/
def Caller.isDequeue : Caller → Bool
  | .dequeue => true
  | .inflight | .retryInflight _ => false

/-- The calls that have still to look: they hold `queueCas` and have not left the loop, or they are
certain to try it (a message is put into the queue, taken out of the window or given up), or they
will put a message into the queue unless they find it empty. -/
def pending : Access → Bool
  | .takeQueueCas | .remove _ | .deleteTimeout _ | .removeExpired _ | .addExt _ _
  | .handleIsEmpty _ | .inflightIsEmpty _ _ | .takeInflightCas _ | .dequeueIsConnected _
  | .dequeueIsEmpty _ | .dequeueIsFull _ | .dequeueTakeInflightCas | .poll | .polledIsConnected _
  | .polledPublish _ => true
  -- a full window leads to the queue, and so does the next check if the flag is not taken yet
  | .inflightIsFull _ locked => !locked
  | .nextIsConnected caller _ | .nextLastMessageId caller _ | .setMessageId caller _ _ _
  | .put caller _ _ _ | .saveTimeout caller _ _ _ | .publishIsConnected caller _ _ _
  | .publish caller _ _ _ | .lastMessageId caller => caller.isDequeue
  | .release .inflight result => result = MsgConst.ENQUEUE_SUCCEEDED
  | .release caller _ => caller.isDequeue
  | .done | .sendIsConnected _ | .sendPublish _ | .releaseInflightCas | .releaseQueueCas
  | .setRetry _ _ _ _ | .removeOld _ _ _ _ | .pubrecGet _ | .setStatus _ | .retryGet _
  | .getRetry _ _ | .getMessageId _ | .getStatus _ _ | .setRetryReceived _ _
  | .saveTimeoutReceived _ | .publishRelease _ | .retryTakeInflightCas _ _ => false

/-- The calls of `retry` that may take a message out from under its id. -/
def retrying : Access → Bool
  | .retryGet _ | .getRetry _ _ | .getMessageId _ | .getStatus _ _ | .retryTakeInflightCas _ _
  | .setRetry _ _ _ _ | .removeOld _ _ _ _ => true
  | .nextIsConnected caller _ | .nextLastMessageId caller _ | .setMessageId caller _ _ _ =>
      caller.everPublished
  | .put _ _ _ _ | .saveTimeout _ _ _ _ | .publishIsConnected _ _ _ _ | .publish _ _ _ _
  | .lastMessageId _ | .release _ _ | .takeQueueCas | .deleteTimeout _ | .dequeueIsConnected _
  | .dequeueIsEmpty _ | .dequeueIsFull _ | .dequeueTakeInflightCas | .poll | .polledIsConnected _
  | .polledPublish _ | .done | .handleIsEmpty _ | .sendIsConnected _ | .sendPublish _
  | .addExt _ _ | .inflightIsEmpty _ _ | .inflightIsFull _ _ | .takeInflightCas _
  | .releaseInflightCas | .releaseQueueCas | .remove _ | .pubrecGet _ | .setStatus _
  | .removeExpired _ | .setRetryReceived _ _ | .saveTimeoutReceived _ | .publishRelease _ => false

/-- What is called: neither a retry, nor is the connection closed. -/
def Keeps : Move Call → Prop
  | .call (.retry _) | .call .close => False
  | _ => True

/-- A call gives up only when there is nothing to do or another call has still to look. -/
def WakeOk (r : Run) : Move Call → Prop
  | .call _ => True
  | .run index => r.tasks[index]? = some .takeQueueCas → r.shared.queueCas = true →
      Flushed r.shared ∨ ∃ u ∈ r.tasks.eraseIdx index, pending u = true

instance : DecidablePred Keeps
  | .call (.retry _) | .call .close => inferInstanceAs (Decidable False)
  | .call (.publishMessage _ _) | .call .publishCachedMessage | .call (.receivePuback _)
  | .call (.receivePubrec _) | .call (.receivePubcomp _) | .call .accept | .run _ =>
      inferInstanceAs (Decidable True)

instance decidableWakeOk (r : Run) : ∀ move : Move Call, Decidable (WakeOk r move)
  | .call _ => inferInstanceAs (Decidable True)
  | .run _ => inferInstanceAs (Decidable (_ → _))

/-! ### One access -/

variable {s : State} {t : Access}

@[simp] lemma retrying_afterHandle (result : ℤ) : retrying (afterHandle result) = false :=
  apply_afterHandle retrying result rfl

@[simp] lemma retrying_stop (locked : Bool) : retrying (stop locked) = false :=
  apply_stop retrying locked rfl

@[simp] lemma retrying_noMessageId (m : ℕ) (caller : Caller) :
    retrying (noMessageId m caller) = false := by
  cases caller <;> rfl

@[simp] lemma retrying_afterRelease (result : ℤ) (caller : Caller) :
    retrying (afterRelease result caller) = false :=
  apply_afterRelease retrying result caller rfl rfl

@[simp] lemma retrying_afterSetMessageId (m : ℕ) (messageId : ℤ) (before : ℕ) (caller : Caller) :
    retrying (afterSetMessageId m messageId before caller) = caller.everPublished := by
  cases caller <;> rfl

/-- Only `retry` leads there. -/
lemma retrying_exec (h : retrying t = false) : retrying (exec s t).2 = false := by
  cases t
  case' sendPublish m => rw [exec_sendPublish]
  case' polledPublish m => rw [exec_polledPublish]
  case' publish caller m messageId before => rw [exec_publish]
  case' poll =>
    dsimp only [exec]
    split
  case' pubrecGet messageId =>
    dsimp only [exec]
    split
  all_goals try dsimp only [exec]
  all_goals try split_ifs
  all_goals try simp only [retrying_afterHandle, retrying_stop, retrying_noMessageId,
    retrying_afterRelease, retrying_afterSetMessageId]
  all_goals first | exact h | rfl | cases h

/-- Storing a message does not make room. -/
lemma isInflightFull_put {messageId : ℤ} {m : ℕ} (log : List Event) (h : s.isInflightFull = true) :
    State.isInflightFull { s with inflights := s.inflights.put messageId m, log := log } =
      true := by
  have hlength := PlainMap.length_values_le_put s.inflights messageId m
  rw [State.isInflightFull] at h ⊢
  rw [decide_eq_true_eq] at h ⊢
  exact ⟨h.1, by dsimp only; omega⟩

/-- **One access of a call that does not give up**: the call is pending afterwards, or it has seen
that there is nothing to do, or it has left the queue and the room as they were. -/
lemma flushed_exec (hc : s.endpoint.isConnected = true) (hr : s.endpoint.InRange)
    (hretry : retrying t = false) (hflag : t = .takeQueueCas → s.queueCas = false) :
    pending (exec s t).2 = true ∨ (Flushed s ∨ pending t = true → Flushed (exec s t).1) := by
  -- an access that changes neither and comes from a call that was not pending
  have hidle : pending t = false → Flushed s ∨ pending t = true → Flushed s := by
    intro hpending h
    simpa [hpending] using h
  have hnext := (nextId_range hr).1
  cases t
  -- a message on its way into the queue, unless the queue is seen empty
  case handleIsEmpty m =>
    dsimp only [exec]
    split_ifs with hempty
    · exact Or.inr fun _ => Or.inl (List.isEmpty_iff.1 hempty)
    · exact Or.inl rfl
  case inflightIsEmpty m locked =>
    dsimp only [exec]
    split_ifs with hempty
    · exact Or.inr fun _ => Or.inl (List.isEmpty_iff.1 hempty)
    · exact Or.inl rfl
  case inflightIsFull m locked =>
    dsimp only [exec]
    split_ifs with hfull hlocked
    · exact Or.inl rfl
    · exact Or.inr (hidle (by simp [pending, hlocked]))
    · exact Or.inl rfl
  case addExt m locked =>
    left
    have hpos : (BoundedConcurrentLinkedQueue.addExt s.queue m).1 ≥ 0 := by
      simp only [BoundedConcurrentLinkedQueue.addExt]
      split_ifs <;> simp
    cases locked <;> simp [exec, hpos, pending, afterHandle]
  -- the accesses of `dequeue`: it goes on looking until it has seen an empty queue or a full window
  case takeQueueCas =>
    simp [exec, hflag rfl, pending]
  case dequeueIsConnected locked => simp [exec, hc, pending]
  case dequeueIsEmpty locked =>
    dsimp only [exec]
    split_ifs with hempty
    · exact Or.inr fun _ => Or.inl (List.isEmpty_iff.1 hempty)
    · exact Or.inl rfl
  case dequeueIsFull locked =>
    dsimp only [exec]
    split_ifs with hfull hlocked
    · exact Or.inr fun _ => Or.inr hfull
    · exact Or.inl rfl
    · exact Or.inl rfl
  case dequeueTakeInflightCas =>
    dsimp only [exec]
    split_ifs <;> exact Or.inl rfl
  case poll =>
    dsimp only [exec]
    cases hitems : s.queue.items with
    | nil => exact Or.inr fun _ => Or.inl hitems
    | cons m rest =>
        left
        dsimp only
        split_ifs <;> rfl
  case polledIsConnected m => simp [exec, hc, pending]
  case polledPublish m =>
    rw [exec_polledPublish, if_pos hc]
    exact Or.inl rfl
  case nextIsConnected caller m =>
    cases caller <;> simp [exec, hc, pending, Caller.isDequeue]
  case nextLastMessageId caller m =>
    have hpos : 0 < nextId s.endpoint.lastMessageId := by omega
    cases caller <;> simp [exec, hpos, pending, Caller.isDequeue]
  -- the common part: only `dequeue` comes back to its loop, the two others take nothing away
  case put caller m messageId before =>
    cases caller with
    | dequeue => exact Or.inl rfl
    | inflight | retryInflight old =>
        exact Or.inr fun h => (hidle rfl h).imp id (isInflightFull_put _)
  case publish caller m messageId before =>
    rw [exec_publish, if_pos hc]
    cases caller with
    | dequeue =>
        left
        dsimp only
        split_ifs <;> rfl
    | inflight | retryInflight old => exact Or.inr (hidle rfl)
  case release caller result =>
    cases caller with
    | inflight =>
        by_cases hresult : result = MsgConst.ENQUEUE_SUCCEEDED
        · exact Or.inl (by simp [exec, afterRelease, afterHandle, hresult, pending])
        · exact Or.inr (hidle (by simp [pending, hresult]))
    | dequeue => exact Or.inl rfl
    | retryInflight old => exact Or.inr (hidle rfl)
  case setMessageId caller m messageId before | saveTimeout caller m messageId before |
      lastMessageId caller =>
    cases caller with
    | dequeue => exact Or.inl rfl
    | inflight | retryInflight old => exact Or.inr (hidle rfl)
  case publishIsConnected caller m messageId before =>
    cases caller with
    | dequeue => simp [exec, hc, pending, Caller.isDequeue]
    | inflight | retryInflight old => exact Or.inr (hidle rfl)
  -- room is made, and `dequeue` comes next
  case remove messageId | deleteTimeout messageId | removeExpired messageId => exact Or.inl rfl
  case sendPublish m =>
    rw [exec_sendPublish, if_pos hc]
    exact Or.inr (hidle rfl)
  case takeInflightCas m =>
    dsimp only [exec]
    split_ifs <;> exact Or.inl rfl
  all_goals first | exact Or.inr (hidle rfl) | cases hretry

/-- Who is still there after a step of another call. -/
lemma mem_set_of_mem_eraseIdx {l : List Access} {i : ℕ} {u t' : Access} (h : u ∈ l.eraseIdx i) :
    u ∈ l.set i t' := by
  obtain ⟨j, hne, hj⟩ := mem_eraseIdx_iff_getElem?.1 h
  exact mem_of_getElem? ((getElem?_set_ne (Ne.symm hne)).trans hj)

/-! ### Runs -/

/-- In a connected session the call that finds nothing to do or the pending ones. -/
structure Watched (r : Run) : Prop where
  connected : r.shared.endpoint.isConnected = true
  inRange : r.shared.endpoint.InRange
  plain : ∀ t ∈ r.tasks, retrying t = false
  watched : Flushed r.shared ∨ ∃ t ∈ r.tasks, pending t = true

lemma Watched.call {r r' : Run} (h : Watched r) {call : Call} (hkeeps : Keeps (.call call))
    (hstep : step r (.call call) = some r') : Watched r' := by
  obtain rfl := Option.some.inj hstep
  obtain ⟨hconfig, hqueue, hinflights, -, -, hlast⟩ := frame_start call r.shared
  have hstart : (start call r.shared).1.endpoint.isConnected = true ∧
      retrying (start call r.shared).2 = false := by
    cases call with
    | publishMessage message qos =>
        exact ⟨h.connected, apply_handleMessage retrying _ _ _ rfl rfl rfl⟩
    | publishCachedMessage | receivePuback messageId | receivePubrec messageId
    | receivePubcomp messageId => exact ⟨h.connected, rfl⟩
    | accept =>
        dsimp only [start]
        simp only [MqttEndpoint.accept]
        split_ifs
        · exact ⟨h.connected, rfl⟩
        · exact ⟨rfl, rfl⟩
    | retry messageId | close => exact hkeeps.elim
  obtain ⟨hconnected, hplain⟩ := hstart
  have hrange : (start call r.shared).1.endpoint.InRange := by
    simp only [MqttEndpoint.InRange]
    rw [hlast]
    exact h.inRange
  have hflushed : Flushed r.shared → Flushed (start call r.shared).1 := by
    simp only [Flushed, State.isInflightFull]
    rw [hconfig, hqueue, hinflights]
    exact id
  refine ⟨hconnected, hrange, fun t ht => ?_, ?_⟩
  · rcases mem_append.1 ht with ht | ht
    · exact h.plain t ht
    · obtain rfl := mem_singleton.1 ht
      exact hplain
  · rcases h.watched with hf | ⟨t, ht, hpending⟩
    · exact Or.inl (hflushed hf)
    · exact Or.inr ⟨t, mem_append_left _ ht, hpending⟩

lemma Watched.run {r r' : Run} (h : Watched r) {index : ℕ} (hok : WakeOk r (.run index))
    (hstep : step r (.run index) = some r') : Watched r' := by
  obtain ⟨t, ht, rfl⟩ := Pool.step_run hstep
  have hmem := mem_of_getElem? ht
  refine ⟨(frame_exec r.shared t).2.1.trans h.connected, inRange_exec h.inRange t,
    fun u hu => ?_, ?_⟩
  · rcases mem_or_eq_of_mem_set hu with hu | rfl
    · exact h.plain u hu
    · exact retrying_exec (h.plain t hmem)
  · -- another call that is pending stays so
    have hothers : ∀ u ∈ r.tasks.eraseIdx index, pending u = true →
        ∃ u ∈ r.tasks.set index (exec r.shared t).2, pending u = true := fun u hu hpending =>
      ⟨u, mem_set_of_mem_eraseIdx hu, hpending⟩
    -- the case of the condition: this call gives up
    by_cases hflag : t = .takeQueueCas ∧ r.shared.queueCas = true
    · obtain ⟨rfl, hcas⟩ := hflag
      have hsame : exec r.shared .takeQueueCas = (r.shared, .done) := if_pos hcas
      rw [hsame] at hothers ⊢
      exact (hok ht hcas).imp id fun ⟨u, hu, hpending⟩ => hothers u hu hpending
    · have hflag' : t = .takeQueueCas → r.shared.queueCas = false := fun htake => by
        simpa [htake] using hflag
      rcases flushed_exec h.connected h.inRange (h.plain t hmem) hflag' with hpending | hflushed
      · have hlt := (List.getElem?_eq_some_iff.1 ht).1
        exact Or.inr ⟨_, mem_set hlt _, hpending⟩
      · rcases h.watched with hf | ⟨u, hu, hpending⟩
        · exact Or.inl (hflushed (Or.inl hf))
        · obtain ⟨j, hj⟩ := mem_iff_getElem?.1 hu
          -- the pending call is this one, which has looked by now, or another one
          by_cases heq : j = index
          · subst heq
            obtain rfl := Option.some.inj (ht.symm.trans hj)
            exact Or.inl (hflushed (Or.inr hpending))
          · exact Or.inr (hothers u (mem_eraseIdx_iff_getElem?.2 ⟨j, heq, hj⟩) hpending)

lemma Watched.step {r r' : Run} (h : Watched r) {move : Move Call} (hkeeps : Keeps move)
    (hok : WakeOk r move) (hstep : Calls.step r move = some r') : Watched r' := by
  cases move with
  | call call => exact h.call hkeeps hstep
  | run index => exact h.run hok hstep

/-- **Nothing is left behind as long as no wake-up is lost.**  For every configuration, every
connected endpoint and every interleaving of the calls that stays connected and has no retry, and
in which a call gives up on `queueCas` only when there is nothing to do or another call has still to
look: in every state on the way in which no call is in progress the queue is empty or the window
full. -/
theorem flushed_run (config : Config) (endpoint : MqttEndpoint) (hc : endpoint.isConnected = true)
    (hr : endpoint.InRange) (moves : List (Move Call)) (hkeeps : ∀ move ∈ moves, Keeps move)
    (hok : AllSteps step WakeOk (init config endpoint) moves) (before after : List (Move Call))
    (hsplit : moves = before ++ after) (r : Run)
    (hrun : run step (init config endpoint) before = some r)
    (hdone : ∀ t ∈ r.tasks, t = .done) : Flushed r.shared := by
  subst hsplit
  have hinit : Watched (init config endpoint) :=
    ⟨hc, hr, fun t ht => absurd ht not_mem_nil, Or.inl (Or.inl rfl)⟩
  have hwatched : Watched r := invariant_run
    (fun u move u' hmem hu hstep hrun => hu.step (hkeeps move (mem_append_left _ hmem)) hstep hrun)
    hinit hok.of_append hrun
  rcases hwatched.watched with hf | ⟨t, ht, hpending⟩
  · exact hf
  · rw [hdone t ht] at hpending
    exact absurd hpending Bool.false_ne_true

/-- A call that runs on its own. -/
def alone (index n : ℕ) : List (Move Call) := replicate n (.run index)

/-- A window of one message. -/
def narrowConfig : Config := { sampleConfig with sessionInflightMaxCapacity := 1 }

/-- One message is sent, the next one is queued; the PUBACK makes room for it. -/
def ackedMoves : List (Move Call) :=
  [.call (.publishMessage sampleMessage .atLeastOnce)] ++ alone 0 14 ++
    [.call (.publishMessage sampleMessage .atLeastOnce)] ++ alone 1 8 ++
    [.call (.receivePuback 1)] ++ alone 2 24

theorem flushed_run_acked :
    Flushed ((run step (init narrowConfig sampleEndpoint) ackedMoves).get (by decide)).shared :=
  flushed_run narrowConfig sampleEndpoint rfl ⟨by decide, by decide⟩ ackedMoves (by decide)
    (by decide) ackedMoves [] (by simp) _ (Option.some_get _).symm (by decide)

/-- The PUBACK makes room and finds nothing queued.  Before it gives the flag back the second
message, which has seen the full window, is put into the queue, and its call gives up. -/
theorem not_flushed_run :
    ¬∀ (config : Config) (endpoint : MqttEndpoint), endpoint.isConnected = true →
      endpoint.InRange → ∀ moves : List (Move Call), (∀ move ∈ moves, Keeps move) →
        ∀ r, run step (init config endpoint) moves = some r → (∀ t ∈ r.tasks, t = .done) →
          Flushed r.shared := by
  intro h
  have hrun : (run step (init narrowConfig sampleEndpoint)
      ([.call (.publishMessage sampleMessage .atLeastOnce)] ++ alone 0 14 ++
        [.call (.publishMessage sampleMessage .atLeastOnce)] ++ alone 1 2 ++
        [.call (.receivePuback 1)] ++ alone 2 5 ++ alone 1 2 ++ alone 2 1)).map
      (fun r => (r.tasks, r.shared.queue.items, r.shared.isInflightFull)) =
        some ([.done, .done, .done], [1], false) := by decide
  obtain ⟨r, hr, heq⟩ := Option.map_eq_some_iff.1 hrun
  simp only [Prod.mk.injEq] at heq
  obtain ⟨htasks, hqueue, hfull⟩ := heq
  have hflushed := h narrowConfig sampleEndpoint rfl ⟨by decide, by decide⟩ _ (by decide) r hr
    (by rw [htasks]; decide)
  simp only [Flushed] at hflushed
  rw [hqueue, hfull] at hflushed
  exact absurd hflushed (by decide)

end Calls

end Stuart
