/-
Whether an acknowledgement is final, and whether the window keeps its bound.

A message is in one place at a time: with the call that holds it, in the queue, or in the inflight
map.  An acknowledgement takes it out of the map, and then it is nowhere.  `retryInflight` looks
the message up before it takes `inflightCas`, and removes the old key without looking whether the
message is still there.  If it is not, the message that is put under the new key is one that was
acknowledged, or one that another retry has moved, and it is one more than there was room for.
As long as every retry still finds its message, and nothing is acknowledged that was not sent yet,
what was acknowledged stays away and the window keeps its bound (`window_run`).
-/
import Stuart.Sessions.Calls

namespace Stuart

open List Lib

namespace Calls

/-! ### What is shown -/

/-- The message that is stored or sent. -/
def Event.message : Event → Option ℕ
  | .stored m _ | .direct m _ | .polled m _ | .published m _ _ => some m
  | .acknowledged _ => none

/-- What was acknowledged is not stored or sent any more. -/
def NotAgain (before : List Event) (event : Event) : Prop :=
  ∀ m, event.message = some m → .acknowledged m ∉ before

/-- How many messages are in the window. -/
def size (s : State) : ℤ := ((PlainMap.values s.inflights).length : ℤ)

/-- The window keeps its bound, and what was acknowledged stays away. -/
structure Windowed (s : State) : Prop where
  bound : size s ≤ s.config.sessionInflightMaxCapacity
  away : ∀ m, .acknowledged m ∈ s.log → ∀ key, s.inflights.get key ≠ some m
  notAgain : Allowed NotAgain s.log

/-! ### The condition -/

/-- A call that has stored the message and has not sent it yet. -/
def sending : Access → Option ℕ
  | .saveTimeout _ m _ _ | .publishIsConnected _ m _ _ | .publish _ m _ _ => some m
  | _ => none

/-- A retry that takes its message out from under the old id finds it there, and an acknowledgement
finds no message that is about to be sent. -/
def AccessOk (r : Run) : Access → Prop
  | .removeOld m old _ _ => r.shared.inflights.get old = some m
  | .remove messageId => ∀ m ∈ r.shared.inflights.get messageId,
      ∀ u ∈ r.tasks, sending u ≠ some m
  | _ => True

def WindowOk (r : Run) : Move Call → Prop
  | .call _ => True
  | .run index => ∀ t ∈ r.tasks[index]?, AccessOk r t

instance decidableAccessOk (r : Run) : ∀ t : Access, Decidable (AccessOk r t)
  | .removeOld m old _ _ => inferInstanceAs (Decidable (r.shared.inflights.get old = some m))
  | .remove messageId => inferInstanceAs (Decidable (∀ m ∈ r.shared.inflights.get messageId,
      ∀ u ∈ r.tasks, sending u ≠ some m))
  | .done | .handleIsEmpty _ | .sendIsConnected _ | .sendPublish _ | .addExt _ _
  | .inflightIsEmpty _ _ | .inflightIsFull _ _ | .takeInflightCas _ | .takeQueueCas
  | .dequeueIsConnected _ | .dequeueIsEmpty _ | .dequeueIsFull _ | .dequeueTakeInflightCas | .poll
  | .polledIsConnected _ | .polledPublish _ | .releaseInflightCas | .releaseQueueCas
  | .nextIsConnected _ _ | .nextLastMessageId _ _ | .setMessageId _ _ _ _ | .setRetry _ _ _ _
  | .put _ _ _ _ | .saveTimeout _ _ _ _ | .publishIsConnected _ _ _ _ | .publish _ _ _ _
  | .lastMessageId _ | .release _ _ | .deleteTimeout _ | .pubrecGet _ | .setStatus _ | .retryGet _
  | .getRetry _ _ | .removeExpired _ | .getMessageId _ | .getStatus _ _ | .setRetryReceived _ _
  | .saveTimeoutReceived _ | .publishRelease _ | .retryTakeInflightCas _ _ =>
      inferInstanceAs (Decidable True)

instance decidableWindowOk (r : Run) : ∀ move : Move Call, Decidable (WindowOk r move)
  | .call _ => inferInstanceAs (Decidable True)
  | .run index => inferInstanceAs (Decidable (∀ t ∈ r.tasks[index]?, AccessOk r t))

/-! ### Where a message is -/

/-- The call holds the message, which is neither queued nor stored. -/
def holds (m : ℕ) : Access → Bool
  | .handleIsEmpty m' | .sendIsConnected m' | .sendPublish m' | .addExt m' _
  | .inflightIsEmpty m' _ | .inflightIsFull m' _ | .takeInflightCas m' | .polledIsConnected m'
  | .polledPublish m' | .put _ m' _ _ => m' = m
  | .nextIsConnected caller m' | .nextLastMessageId caller m' | .setMessageId caller m' _ _ =>
      -- a retry has only looked its message up
      !caller.everPublished && decide (m' = m)
  | .done | .takeQueueCas | .dequeueIsConnected _ | .dequeueIsEmpty _ | .dequeueIsFull _
  | .dequeueTakeInflightCas | .poll | .releaseInflightCas | .releaseQueueCas | .setRetry _ _ _ _
  | .removeOld _ _ _ _ | .saveTimeout _ _ _ _ | .publishIsConnected _ _ _ _ | .publish _ _ _ _
  | .lastMessageId _ | .release _ _ | .remove _ | .deleteTimeout _ | .pubrecGet _ | .setStatus _
  | .retryGet _ | .getRetry _ _ | .removeExpired _ | .getMessageId _ | .getStatus _ _
  | .setRetryReceived _ _ | .saveTimeoutReceived _ | .publishRelease _
  | .retryTakeInflightCas _ _ => false

/-- How often a message is queued or stored. -/
def owned (s : State) (m : ℕ) : ℕ := s.queue.items.count m + (PlainMap.values s.inflights).count m

/-- In how many places a message is. -/
def places (r : Run) (m : ℕ) : ℕ := r.tasks.countP (holds m) + owned r.shared m

/-- The calls that have seen room in the window, and hold the flag. -/
def roomy : Access → Bool
  | .poll | .polledIsConnected _ | .polledPublish _ | .put _ _ _ _ => true
  | .nextIsConnected caller _ | .nextLastMessageId caller _ | .setMessageId caller _ _ _ =>
      !caller.everPublished
  | _ => false

/-- The invariant. -/
structure Sound (r : Run) : Prop where
  exclusive : Exclusive r
  once : ∀ m, places r m ≤ 1
  created : ∀ m, r.shared.created ≤ m → places r m = 0
  known : ∀ m, .acknowledged m ∈ r.shared.log → m < r.shared.created
  away : ∀ m, .acknowledged m ∈ r.shared.log → places r m = 0
  sending : ∀ t ∈ r.tasks, ∀ m, sending t = some m → .acknowledged m ∉ r.shared.log
  capacity : 0 < r.shared.config.sessionInflightMaxCapacity
  bound : size r.shared ≤ r.shared.config.sessionInflightMaxCapacity
  roomy : ∀ t ∈ r.tasks, roomy t = true →
    size r.shared < r.shared.config.sessionInflightMaxCapacity
  notAgain : Allowed NotAgain r.shared.log

/-! ### One access -/

variable {s : State} {t : Access}

@[simp] lemma holds_afterHandle (m : ℕ) (result : ℤ) : holds m (afterHandle result) = false :=
  apply_afterHandle (holds m) result rfl

@[simp] lemma holds_stop (m : ℕ) (locked : Bool) : holds m (stop locked) = false :=
  apply_stop (holds m) locked rfl

@[simp] lemma holds_afterRelease (m : ℕ) (result : ℤ) (caller : Caller) :
    holds m (afterRelease result caller) = false :=
  apply_afterRelease (holds m) result caller rfl rfl

/-- A call that gets no id does not hold more than before. -/
lemma holds_noMessageId_le (m m' : ℕ) (caller : Caller) :
    (holds m (noMessageId m' caller)).toNat ≤ (holds m (.nextIsConnected caller m')).toNat := by
  cases caller <;> simp [noMessageId, holds, Caller.everPublished]

lemma count_cons_eq (l : List ℕ) (m m' : ℕ) :
    (m' :: l).count m = l.count m + (decide (m' = m)).toNat := by
  rw [count_cons]
  by_cases h : m' = m <;> simp [h]

/-- **A message is never in more places than before.** -/
lemma places_exec (hold : ∀ m old messageId before, t = .removeOld m old messageId before →
      s.inflights.get old = some m) (m : ℕ) :
    owned (exec s t).1 m + (holds m (exec s t).2).toNat ≤ owned s m + (holds m t).toNat := by
  cases t
  case addExt m' locked =>
    have hqueue : (BoundedConcurrentLinkedQueue.addExt s.queue m').2.items.count m ≤
        s.queue.items.count m + (decide (m' = m)).toNat := by
      rw [← count_cons_eq, ← (perm_append_singleton m' s.queue.items).count_eq]
      exact (BoundedConcurrentLinkedQueue.addExt_sublist s.queue m').count_le m
    have hnext : ∀ result, holds m (if locked = true then .release .inflight result
        else afterHandle result) = false := by
      intro result
      cases locked
      · exact holds_afterHandle m result
      · rfl
    dsimp only [exec]
    rw [hnext]
    show _ + _ + 0 ≤ s.queue.items.count m + _ + (decide (m' = m)).toNat
    dsimp only
    omega
  case poll =>
    dsimp only [exec]
    cases hitems : s.queue.items with
    | nil => exact le_rfl
    | cons m' rest =>
        have hnext : holds m (if (s.heap m').qos = .atMostOnce then .polledIsConnected m'
            else .nextIsConnected .dequeue m') = decide (m' = m) := by
          split_ifs
          · rfl
          · exact Bool.true_and _
        dsimp only
        rw [hnext]
        unfold owned
        rw [hitems, count_cons_eq]
        dsimp only
        omega
  -- the message goes over from the call into the map; what it replaces is lost
  case put caller m' messageId before =>
    have hvalues := (PlainMap.values_put_sublist s.inflights messageId m').count_le m
    rw [count_cons_eq] at hvalues
    show s.queue.items.count m + (PlainMap.values (s.inflights.put messageId m')).count m + 0 ≤
      s.queue.items.count m + _ + (decide (m' = m)).toNat
    omega
  -- here the condition is needed: the message comes out of the map into the hand of the call
  case removeOld m' old messageId before =>
    have hperm := (PlainMap.values_perm_of_get (hold m' old messageId before rfl)).count_eq m
    rw [count_cons_eq] at hperm
    show s.queue.items.count m + (PlainMap.values (s.inflights.remove old)).count m +
      (decide (m' = m)).toNat ≤ s.queue.items.count m + _ + 0
    omega
  case remove messageId | removeExpired messageId =>
    have hvalues := (PlainMap.values_remove_sublist s.inflights messageId).count_le m
    show s.queue.items.count m + (PlainMap.values (s.inflights.remove messageId)).count m + 0 ≤
      s.queue.items.count m + _ + 0
    omega
  case nextIsConnected caller m' =>
    dsimp only [exec]
    split_ifs
    · exact le_rfl
    · exact Nat.add_le_add_left (holds_noMessageId_le m m' caller) _
  case nextLastMessageId caller m' =>
    dsimp only [exec]
    split_ifs
    · exact le_rfl
    · exact Nat.add_le_add_left (holds_noMessageId_le m m' caller) _
  case setMessageId caller m' messageId before =>
    cases caller with
    | inflight | dequeue => exact Nat.add_le_add_left (Nat.le_of_eq (by simp [holds, exec,
        afterSetMessageId, Caller.everPublished])) _
    | retryInflight old => exact Nat.add_le_add_left (Nat.zero_le _) _
  case sendPublish m' =>
    rw [exec_sendPublish]
    split_ifs <;> exact Nat.le_add_right _ _
  case polledPublish m' =>
    rw [exec_polledPublish]
    split_ifs
    · show owned s m + (true && decide (m' = m)).toNat ≤ owned s m + (decide (m' = m)).toNat
      rw [Bool.true_and]
    · exact Nat.le_add_right _ _
  case publish caller m' messageId before =>
    rw [exec_publish]
    split_ifs <;> exact le_rfl
  case pubrecGet messageId | retryGet messageId =>
    dsimp only [exec]
    cases s.inflights.get messageId <;> exact le_rfl
  all_goals try dsimp only [exec]
  all_goals try split_ifs
  all_goals try simp only [holds_stop, holds_afterRelease]
  all_goals first | exact le_rfl | exact Nat.le_add_right _ _

/-- An acknowledged message is in one place less. -/
lemma owned_remove {messageId : ℤ} {m : ℕ} (hget : s.inflights.get messageId = some m) :
    owned (exec s (.remove messageId)).1 m + 1 = owned s m := by
  have hperm := (PlainMap.values_perm_of_get hget).count_eq m
  rw [count_cons_self] at hperm
  show s.queue.items.count m + (PlainMap.values (s.inflights.remove messageId)).count m + 1 =
    s.queue.items.count m + _
  omega

/-- An access notes nothing, or the acknowledgement of a stored message, or that the message that
the call holds or has just stored is stored or sent. -/
lemma noted_exec (s : State) (t : Access) :
    (exec s t).1.log = s.log ∨
    (∃ messageId m, t = .remove messageId ∧ s.inflights.get messageId = some m ∧
      (exec s t).1.log = s.log ++ [.acknowledged m]) ∨
    ∃ event m, (exec s t).1.log = s.log ++ [event] ∧ event.message = some m ∧
      (holds m t = true ∨ sending t = some m) := by
  rw [log_exec]
  cases t
  case remove messageId =>
    cases hget : s.inflights.get messageId with
    | none => exact Or.inl (by simp [notes, hget])
    | some m => exact Or.inr (Or.inl ⟨messageId, m, rfl, hget, by simp [notes, hget]⟩)
  case put caller m messageId before =>
    exact Or.inr (Or.inr ⟨_, m, rfl, rfl, Or.inl (decide_eq_true rfl)⟩)
  case sendPublish m | polledPublish m =>
    simp only [notes]
    split_ifs
    · exact Or.inr (Or.inr ⟨_, m, rfl, rfl, Or.inl (decide_eq_true rfl)⟩)
    · exact Or.inl (append_nil _)
  case publish caller m messageId before =>
    simp only [notes]
    split_ifs
    · exact Or.inr (Or.inr ⟨_, m, rfl, rfl, Or.inr rfl⟩)
    · exact Or.inl (append_nil _)
  all_goals exact Or.inl (append_nil _)

@[simp] lemma sending_afterHandle (result : ℤ) : sending (afterHandle result) = none :=
  apply_afterHandle sending result rfl

@[simp] lemma sending_stop (locked : Bool) : sending (stop locked) = none :=
  apply_stop sending locked rfl

@[simp] lemma sending_noMessageId (m : ℕ) (caller : Caller) :
    sending (noMessageId m caller) = none := by
  cases caller <;> rfl

@[simp] lemma sending_afterRelease (result : ℤ) (caller : Caller) :
    sending (afterRelease result caller) = none :=
  apply_afterRelease sending result caller rfl rfl

@[simp] lemma sending_afterSetMessageId (m : ℕ) (messageId : ℤ) (before : ℕ) (caller : Caller) :
    sending (afterSetMessageId m messageId before caller) = none := by
  cases caller <;> rfl

/-- A call that is about to send a message has been so, or it has just stored the message. -/
lemma sending_exec {m : ℕ} (h : sending (exec s t).2 = some m) :
    sending t = some m ∨ holds m t = true ∧ ∃ caller messageId before,
      t = .put caller m messageId before := by
  cases t
  case put caller m' messageId before =>
    obtain rfl : m' = m := Option.some.inj h
    exact Or.inr ⟨decide_eq_true rfl, caller, messageId, before, rfl⟩
  case saveTimeout caller m' messageId before => exact Or.inl h
  case publishIsConnected caller m' messageId before =>
    dsimp only [exec] at h
    split_ifs at h
    · exact Or.inl h
    · cases h
  case sendPublish m' =>
    rw [exec_sendPublish] at h
    split_ifs at h <;> cases h
  case polledPublish m' =>
    rw [exec_polledPublish] at h
    split_ifs at h <;> cases h
  case publish caller m' messageId before =>
    rw [exec_publish] at h
    split_ifs at h <;> cases h
  case poll =>
    dsimp only [exec] at h
    cases hitems : s.queue.items with
    | nil =>
        rw [hitems] at h
        cases h
    | cons m' rest =>
        rw [hitems] at h
        dsimp only at h
        split_ifs at h <;> cases h
  case pubrecGet messageId | retryGet messageId =>
    dsimp only [exec] at h
    cases hget : s.inflights.get messageId <;> rw [hget] at h <;> cases h
  all_goals try dsimp only [exec] at h
  all_goals try split_ifs at h
  all_goals try simp only [sending_afterHandle, sending_stop, sending_noMessageId,
    sending_afterRelease, sending_afterSetMessageId] at h
  all_goals cases h

/-! ### The room -/

@[simp] lemma roomy_afterHandle (result : ℤ) : roomy (afterHandle result) = false :=
  apply_afterHandle roomy result rfl

@[simp] lemma roomy_stop (locked : Bool) : roomy (stop locked) = false :=
  apply_stop roomy locked rfl

@[simp] lemma roomy_noMessageId (m : ℕ) (caller : Caller) :
    roomy (noMessageId m caller) = false := by
  cases caller <;> rfl

@[simp] lemma roomy_afterRelease (result : ℤ) (caller : Caller) :
    roomy (afterRelease result caller) = false :=
  apply_afterRelease roomy result caller rfl rfl

@[simp] lemma roomy_afterSetMessageId (m : ℕ) (messageId : ℤ) (before : ℕ) (caller : Caller) :
    roomy (afterSetMessageId m messageId before caller) = !caller.everPublished := by
  cases caller <;> rfl

lemma inside_of_roomy (h : roomy t = true) : inside t = true := by
  cases t
  all_goals first | rfl | cases h

lemma size_remove_le (s : State) (messageId : ℤ) :
    ((PlainMap.values (s.inflights.remove messageId)).length : ℤ) ≤ size s :=
  Int.ofNat_le.2 (PlainMap.values_remove_sublist s.inflights messageId).length_le

lemma lt_of_not_isInflightFull (hc : 0 < s.config.sessionInflightMaxCapacity)
    (h : ¬s.isInflightFull = true) : size s < s.config.sessionInflightMaxCapacity := by
  simp only [State.isInflightFull] at h
  rw [decide_eq_true_eq] at h
  by_contra hsize
  exact h ⟨hc, Int.not_lt.1 hsize⟩

/-- **One access keeps the bound**, and a call goes on to store a new message only with room. -/
lemma room_exec (hc : 0 < s.config.sessionInflightMaxCapacity)
    (hold : ∀ m old messageId before, t = .removeOld m old messageId before →
      s.inflights.get old = some m)
    (hbound : size s ≤ s.config.sessionInflightMaxCapacity)
    (hroom : roomy t = true → size s < s.config.sessionInflightMaxCapacity) :
    size (exec s t).1 ≤ s.config.sessionInflightMaxCapacity ∧
      (roomy (exec s t).2 = true → size (exec s t).1 < s.config.sessionInflightMaxCapacity) := by
  cases t
  case inflightIsFull m locked =>
    refine ⟨hbound, fun h => ?_⟩
    dsimp only [exec] at h ⊢
    split_ifs at h with hfull
    · cases h
    · exact lt_of_not_isInflightFull hc hfull
    · cases h
  case dequeueIsFull locked =>
    refine ⟨hbound, fun h => ?_⟩
    dsimp only [exec] at h ⊢
    split_ifs at h with hfull
    · rw [roomy_stop] at h
      cases h
    · exact lt_of_not_isInflightFull hc hfull
    · cases h
  case removeOld m old messageId before =>
    have hperm := (PlainMap.values_perm_of_get (hold m old messageId before rfl)).length_eq
    have hsize : size (exec s (.removeOld m old messageId before)).1 + 1 = size s := by
      show ((PlainMap.values (s.inflights.remove old)).length : ℤ) + 1 = _
      simp only [size]
      rw [hperm, length_cons, Int.natCast_succ]
    exact ⟨by omega, fun _ => by omega⟩
  case put caller m messageId before =>
    have hlength := (PlainMap.values_put_sublist s.inflights messageId m).length_le
    have hsize : size (exec s (.put caller m messageId before)).1 ≤ size s + 1 := by
      rw [length_cons] at hlength
      show ((PlainMap.values (s.inflights.put messageId m)).length : ℤ) ≤ _
      simp only [size]
      omega
    -- the call has seen room while it held the flag
    have hlt := hroom rfl
    exact ⟨by omega, fun h => by cases h⟩
  case remove messageId | removeExpired messageId =>
    exact ⟨Int.le_trans (size_remove_le s messageId) hbound, fun h => by cases h⟩
  case poll =>
    dsimp only [exec]
    cases s.queue.items with
    | nil => exact ⟨hbound, fun h => by cases h⟩
    | cons m rest => exact ⟨hbound, fun _ => hroom rfl⟩
  case sendPublish m =>
    rw [exec_sendPublish]
    split_ifs <;> exact ⟨hbound, fun h => by cases h⟩
  case polledPublish m =>
    rw [exec_polledPublish]
    split_ifs <;> exact ⟨hbound, fun _ => hroom rfl⟩
  case publish caller m messageId before =>
    rw [exec_publish]
    split_ifs <;> exact ⟨hbound, fun h => by cases h⟩
  case pubrecGet messageId | retryGet messageId =>
    refine ⟨hbound, fun h => ?_⟩
    dsimp only [exec] at h
    cases hget : s.inflights.get messageId <;> rw [hget] at h <;> cases h
  all_goals try dsimp only [exec]
  all_goals try split_ifs
  all_goals refine ⟨hbound, fun h => ?_⟩
  all_goals try simp only [roomy_afterHandle, roomy_stop, roomy_noMessageId, roomy_afterRelease,
    roomy_afterSetMessageId] at h
  all_goals first | exact hroom h | cases h

/-- Without the flag the window only gets smaller. -/
lemma size_exec_le (h : inside t = false) : size (exec s t).1 ≤ size s := by
  cases t
  case remove messageId | removeExpired messageId => exact size_remove_le s messageId
  case sendPublish m =>
    rw [exec_sendPublish]
    split_ifs <;> exact Int.le_refl _
  all_goals try cases h
  all_goals try dsimp only [exec]
  all_goals try split_ifs
  all_goals exact Int.le_refl _

/-! ### Runs -/

lemma places_pos_of_holds {r : Run} {m : ℕ} (ht : t ∈ r.tasks) (h : holds m t = true) :
    0 < places r m :=
  Nat.add_pos_left (countP_pos_iff.2 ⟨t, ht, h⟩) _

lemma places_pos_of_get {r : Run} {m : ℕ} {key : ℤ} (h : r.shared.inflights.get key = some m) :
    0 < places r m := by
  have hcount := count_pos_iff.2 ((PlainMap.mem_values_iff r.shared.inflights m).2 ⟨key, h⟩)
  simp only [places, owned]
  omega

/-- The acknowledgements of a state after an access. -/
lemma acknowledged_exec {m : ℕ} (h : .acknowledged m ∈ (exec s t).1.log) :
    .acknowledged m ∈ s.log ∨
      ∃ messageId, t = .remove messageId ∧ s.inflights.get messageId = some m := by
  rcases noted_exec s t with hlog | ⟨messageId, m', rfl, hget, hlog⟩ | ⟨event, m', hlog, hmsg, -⟩
  · exact Or.inl (hlog ▸ h)
  · rw [hlog, mem_append, mem_singleton] at h
    rcases h with h | h
    · exact Or.inl h
    · obtain rfl := Event.acknowledged.inj h
      exact Or.inr ⟨messageId, rfl, hget⟩
  · rw [hlog, mem_append, mem_singleton] at h
    rcases h with h | rfl
    · exact Or.inl h
    · cases hmsg

/-- The beginning of a call: it holds at most the message that is created for it. -/
lemma holds_start {call : Call} {m : ℕ} (h : holds m (start call s).2 = true) :
    m = s.created ∧ (start call s).1.created = s.created + 1 := by
  cases call with
  | publishMessage message qos =>
      refine ⟨?_, rfl⟩
      change holds m (handleMessage s.config s.created qos) = true at h
      simp only [handleMessage] at h
      split_ifs at h <;> exact (of_decide_eq_true h).symm
  | publishCachedMessage | receivePuback messageId | receivePubrec messageId
  | receivePubcomp messageId | retry messageId | accept | close => cases h

/-- A call that begins is not about to send, nor has it seen room. -/
lemma sending_start (call : Call) (s : State) :
    sending (start call s).2 = none ∧ roomy (start call s).2 = false := by
  cases call with
  | publishMessage message qos =>
      exact ⟨apply_handleMessage sending _ _ _ rfl rfl rfl,
        apply_handleMessage roomy _ _ _ rfl rfl rfl⟩
  | publishCachedMessage | receivePuback messageId | receivePubrec messageId
  | receivePubcomp messageId | retry messageId | accept | close => exact ⟨rfl, rfl⟩

/-- A call that begins is one more place for the message that is created for it. -/
lemma places_append (r : Run) (call : Call) (m : ℕ) :
    places ⟨(start call r.shared).1, r.tasks ++ [(start call r.shared).2]⟩ m =
      places r m + (holds m (start call r.shared).2).toNat := by
  obtain ⟨-, hqueue, hinflights, -⟩ := frame_start call r.shared
  rw [places, owned]
  dsimp only
  rw [hqueue, hinflights, countP_append, countP_singleton]
  cases holds m (start call r.shared).2 with
  | false => rfl
  | true => exact Nat.add_right_comm _ 1 _

/-- And none for the other messages. -/
lemma places_append_of_lt {r : Run} (call : Call) {m : ℕ} (hlt : m < r.shared.created) :
    places ⟨(start call r.shared).1, r.tasks ++ [(start call r.shared).2]⟩ m = places r m := by
  rw [places_append]
  cases hholds : holds m (start call r.shared).2 with
  | false => rfl
  | true => exact absurd (holds_start hholds).1 hlt.ne

lemma Sound.call {r r' : Run} (h : Sound r) {call : Call}
    (hstep : step r (.call call) = some r') : Sound r' := by
  have hexclusive := h.exclusive.step hstep
  obtain rfl := Option.some.inj hstep
  obtain ⟨hconfig, -, hinflights, hlog, hcreated, -⟩ := frame_start call r.shared
  obtain ⟨hsending, hroomy⟩ := sending_start call r.shared
  have hsize : size (start call r.shared).1 = size r.shared := by
    simp only [size]
    rw [hinflights]
  refine ⟨hexclusive, fun m => ?_, fun m hm => ?_, fun m hm => ?_, fun m hm => ?_,
    fun t ht m hm => ?_, ?_, ?_, fun t ht hroom => ?_, ?_⟩
  · rw [places_append]
    cases hholds : holds m (start call r.shared).2 with
    | false => exact h.once m
    -- the new message is nowhere else
    | true => rw [h.created m (holds_start hholds).1.ge, Bool.toNat_true]
  · change (start call r.shared).1.created ≤ m at hm
    rw [places_append, h.created m (hcreated.trans hm)]
    cases hholds : holds m (start call r.shared).2 with
    | false => rfl
    | true =>
        obtain ⟨rfl, hsucc⟩ := holds_start hholds
        omega
  · exact (h.known m (hlog ▸ hm)).trans_le hcreated
  · have hold := hlog ▸ hm
    rw [places_append_of_lt call (h.known m hold)]
    exact h.away m hold
  · dsimp only
    rw [hlog]
    rcases mem_append.1 ht with ht | ht
    · exact h.sending t ht m hm
    · obtain rfl := mem_singleton.1 ht
      rw [hsending] at hm
      cases hm
  · dsimp only
    rw [hconfig]
    exact h.capacity
  · dsimp only
    rw [hconfig, hsize]
    exact h.bound
  · dsimp only
    rw [hconfig, hsize]
    rcases mem_append.1 ht with ht | ht
    · exact h.roomy t ht hroom
    · obtain rfl := mem_singleton.1 ht
      rw [hroomy] at hroom
      cases hroom
  · dsimp only
    rw [hlog]
    exact h.notAgain

section Run

variable {r : Run} {index : ℕ} {t : Access}

lemma AccessOk.found (hok : AccessOk r t) {m : ℕ} {old messageId : ℤ} {before : ℕ}
    (heq : t = .removeOld m old messageId before) : r.shared.inflights.get old = some m := by
  subst heq
  exact hok

lemma places_set_le (ht : r.tasks[index]? = some t) (hok : AccessOk r t) (m : ℕ) :
    places ⟨(exec r.shared t).1, r.tasks.set index (exec r.shared t).2⟩ m ≤ places r m := by
  have hcount := Pool.countP_set_of_some ht (holds m) (exec r.shared t).2
  have hexec := places_exec (fun _ _ _ _ => hok.found) m
  unfold places
  dsimp only
  omega

/-- An acknowledgement takes the message out of the one place that it was in. -/
lemma Sound.away_set (h : Sound r) (ht : r.tasks[index]? = some t) (hok : AccessOk r t) {m : ℕ}
    (hm : .acknowledged m ∈ (exec r.shared t).1.log) :
    places ⟨(exec r.shared t).1, r.tasks.set index (exec r.shared t).2⟩ m = 0 := by
  rcases acknowledged_exec hm with hm | ⟨messageId, rfl, hget⟩
  · exact Nat.le_zero.1 ((places_set_le ht hok m).trans_eq (h.away m hm))
  -- it was in the map, so this was the one place, and `remove` has taken it out
  · have honce := h.once m
    have howned := owned_remove hget
    have hcount := Pool.countP_set_of_some ht (holds m) (exec r.shared (.remove messageId)).2
    have hthis : holds m (.remove messageId) = false := rfl
    have hnext : holds m (exec r.shared (.remove messageId)).2 = false := rfl
    rw [hthis, hnext] at hcount
    rw [places] at honce ⊢
    dsimp only at hcount ⊢
    omega

/-- A call that is about to send a message does not send an acknowledged one. -/
lemma Sound.sending_set (h : Sound r) (ht : r.tasks[index]? = some t) (hok : AccessOk r t)
    {u : Access} (hu : u ∈ r.tasks.set index (exec r.shared t).2) {m : ℕ}
    (hm : Calls.sending u = some m) : .acknowledged m ∉ (exec r.shared t).1.log := by
  have hmem := mem_of_getElem? ht
  intro hack
  -- acknowledged before: the call would hold a message that is nowhere.  Acknowledged now: the
  -- condition excludes that another call is about to send it.
  rcases acknowledged_exec hack with hack | ⟨messageId, rfl, hget⟩
  · rcases mem_or_eq_of_mem_set hu with hu | rfl
    · exact h.sending u hu m hm hack
    · rcases sending_exec hm with hm | ⟨hholds, -⟩
      · exact h.sending t hmem m hm hack
      · exact (places_pos_of_holds hmem hholds).ne' (h.away m hack)
  · rcases mem_or_eq_of_mem_set hu with hu | rfl
    · exact hok m hget u hu hm
    · cases hm

/-- What is stored or sent was not acknowledged before: the call holds the message, or has just
stored it. -/
lemma Sound.notAgain_exec (h : Sound r) (hmem : t ∈ r.tasks) :
    Allowed NotAgain (exec r.shared t).1.log := by
  rcases noted_exec r.shared t with hlog | ⟨messageId, m, -, -, hlog⟩ | ⟨event, m, hlog, hmsg, hm⟩
  · rw [hlog]
    exact h.notAgain
  · rw [hlog]
    exact allowed_concat.2 ⟨h.notAgain, fun m' hmsg => by cases hmsg⟩
  · rw [hlog]
    refine allowed_concat.2 ⟨h.notAgain, fun m' hmsg' hack => ?_⟩
    obtain rfl := Option.some.inj (hmsg.symm.trans hmsg')
    rcases hm with hholds | hsending
    · exact (places_pos_of_holds hmem hholds).ne' (h.away m hack)
    · exact h.sending t hmem m hsending hack

lemma Sound.run {r' : Run} (h : Sound r) (hok : WindowOk r (.run index))
    (hstep : step r (.run index) = some r') : Sound r' := by
  have hexclusive := h.exclusive.step hstep
  obtain ⟨t, ht, rfl⟩ := Pool.step_run hstep
  have hmem := mem_of_getElem? ht
  have haccess : AccessOk r t := hok t ht
  obtain ⟨hconfig, -, hcreated⟩ := frame_exec r.shared t
  obtain ⟨hbound, hroomy⟩ := room_exec h.capacity (fun _ _ _ _ => haccess.found) h.bound
    (h.roomy t hmem)
  refine ⟨hexclusive, fun m => (places_set_le ht haccess m).trans (h.once m), fun m hm => ?_,
    fun m hm => ?_, fun m hm => h.away_set ht haccess hm,
    fun u hu m hm => h.sending_set ht haccess hu hm, ?_, ?_, ?_, h.notAgain_exec hmem⟩
  · change (exec r.shared t).1.created ≤ m at hm
    rw [hcreated] at hm
    exact Nat.le_zero.1 ((places_set_le ht haccess m).trans_eq (h.created m hm))
  · change m < (exec r.shared t).1.created
    rw [hcreated]
    rcases acknowledged_exec hm with hm | ⟨messageId, rfl, hget⟩
    · exact h.known m hm
    · by_contra hlt
      exact (places_pos_of_get hget).ne' (h.created m (not_lt.1 hlt))
  · change 0 < (exec r.shared t).1.config.sessionInflightMaxCapacity
    rw [hconfig]
    exact h.capacity
  · dsimp only
    rw [hconfig]
    exact hbound
  -- who has seen room holds the flag, and without the flag nobody stores a message
  · dsimp only
    rw [hconfig]
    refine h.exclusive.forall_set ht h.roomy hroomy fun u hu hother hroom => ?_
    by_cases hin : inside t = true
    · have hout := hother hin
      rw [inside_of_roomy hroom] at hout
      cases hout
    · exact Int.lt_of_le_of_lt (size_exec_le (Bool.not_eq_true _ ▸ hin)) (hu hroom)

end Run

lemma Sound.step {r r' : Run} (h : Sound r) {move : Move Call} (hok : WindowOk r move)
    (hstep : Calls.step r move = some r') : Sound r' := by
  cases move with
  | call call => exact h.call hstep
  | run index => exact h.run hok hstep

lemma Sound.windowed {r : Run} (h : Sound r) : Windowed r.shared :=
  ⟨h.bound, fun m hm _ hget => (places_pos_of_get hget).ne' (h.away m hm), h.notAgain⟩

/-- **An acknowledgement is final and the window bounded as long as every retry finds its message.**
For every configuration with a window, every endpoint and every interleaving in which a retry takes
out the message that it has looked up, and no acknowledgement finds a message that is stored and not
sent yet: in every state on the way there are no more messages in the window than it may hold, and a
message that was acknowledged is neither there nor stored or sent again. -/
theorem window_run (config : Config) (endpoint : MqttEndpoint)
    (hcapacity : 0 < config.sessionInflightMaxCapacity) (moves : List (Move Call))
    (hok : AllSteps step WindowOk (init config endpoint) moves) (before after : List (Move Call))
    (hsplit : moves = before ++ after) (r : Run)
    (hrun : Lib.run step (init config endpoint) before = some r) : Windowed r.shared := by
  subst hsplit
  have hinit : Sound (init config endpoint) :=
    { exclusive := exclusive_init config endpoint
      once := fun m => Nat.zero_le 1
      created := fun m hm => rfl
      known := fun m hm => absurd hm not_mem_nil
      away := fun m hm => absurd hm not_mem_nil
      sending := fun t ht => absurd ht not_mem_nil
      capacity := hcapacity
      bound := Int.le_of_lt hcapacity
      roomy := fun t ht => absurd ht not_mem_nil
      notAgain := allowed_nil }
  exact (invariant_run (fun u move u' _ hu hstep hrun => hu.step hstep hrun) hinit hok.of_append
    hrun).windowed

/-- A message is sent, sent once more under a new id, and acknowledged there. -/
def settledMoves : List (Move Call) :=
  [.call (.publishMessage sampleMessage .atLeastOnce)] ++ replicate 14 (.run 0) ++
    [.call (.retry 1)] ++ replicate 16 (.run 1) ++ [.call (.receivePuback 2)] ++
    replicate 4 (.run 2)

theorem window_run_settled :
    Windowed ((run step (init sampleConfig sampleEndpoint) settledMoves).get (by decide)).shared :=
  window_run sampleConfig sampleEndpoint (by decide) settledMoves (by decide) settledMoves []
    (by simp) _ (Option.some_get _).symm

/-- The PUBACK comes when the retry has looked the message up; the retry stores it again, and
sends it. -/
theorem not_window_run :
    ¬∀ (config : Config) (endpoint : MqttEndpoint), 0 < config.sessionInflightMaxCapacity →
      ∀ (moves : List (Move Call)) (r : Run),
        run step (init config endpoint) moves = some r → Windowed r.shared := by
  intro h
  have hrun : (run step (init sampleConfig sampleEndpoint)
      ([.call (.publishMessage sampleMessage .atLeastOnce)] ++ replicate 14 (.run 0) ++
        [.call (.retry 1), .run 1, .call (.receivePuback 1), .run 2] ++
        replicate 15 (.run 1))).map (fun r => r.shared.log) =
      some [.stored 0 1, .published 0 .atLeastOnce 1, .acknowledged 0, .stored 0 2,
        .published 0 .atLeastOnce 2] := by decide
  obtain ⟨r, hr, hlog⟩ := Option.map_eq_some_iff.1 hrun
  have hwindowed := h sampleConfig sampleEndpoint (by decide) _ r hr
  have hagain := hwindowed.notAgain
    [.stored 0 1, .published 0 .atLeastOnce 1, .acknowledged 0] (.stored 0 2) _ hlog
  exact hagain 0 rfl (by decide)

end Calls

end Stuart
