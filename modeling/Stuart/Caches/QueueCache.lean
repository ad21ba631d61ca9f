/-
Reopening the stored queue of a client while messages are put into it.

`queue(clientId, true)` copies the items of the stored queue, closes it, creates a new one of the
configured capacity and puts the items into it.  `enqueue` works on the queue that it got by name;
once that queue has been closed, every access to it throws.  None of the two takes a lock, so the
accesses of one reopening and any number of enqueues come in any order.

The log keeps what was put into a queue, in that order.  A queue that loses nothing holds the log
without a first part (`Suffix`), and the first part is gone only if there are as many messages
behind it as the capacity says.
-/
import Stuart.Lib.Pool
import Stuart.Services.CacheService

namespace Stuart

open List Lib

namespace QueueCache

/-- A queue of Ignite; a queue that is created later under the same name is another one. -/
structure IgniteQueue where
  id : ℕ
  capacity : ℤ
  items : List MqttMessage
deriving DecidableEq

/-- There is room for so many more items. -/
def IgniteQueue.hasSpace (q : IgniteQueue) (size : ℕ) : Bool :=
  decide (q.capacity ≤ 0 ∨ (q.items.length : ℤ) + size ≤ q.capacity)

/-- What there is under the name of the queue of the client, and the log. -/
structure Store where
  config : Config
  stored : Option IgniteQueue
  /-- how many queues were created so far -/
  created : ℕ
  /-- ghost: the items of the first queue, and those that were put into a queue since -/
  log : List MqttMessage

namespace Store

def capacity (s : Store) : ℤ := s.config.sessionQueueMaxCapacity

def items (s : Store) : List MqttMessage :=
  match s.stored with
  | none => []
  | some q => q.items

/-- `ignite.queue(name, 0, null)`. -/
def find (s : Store) : Option ℕ := s.stored.map IgniteQueue.id

/-- The queue of a handle; `none` if it was removed. -/
def deref (s : Store) (handle : ℕ) : Option IgniteQueue :=
  s.stored.filter fun q => decide (q.id = handle)

def removed (s : Store) (handle : ℕ) : Bool := (s.deref handle).isNone

end Store

/-! ### The two methods -/

/-- Where an `enqueue` is. -/
inductive Enqueue where
  /-- next at `ignite.queue` -/
  | finding (message : MqttMessage)
  /-- next at `removed` -/
  | checking (message : MqttMessage) (handle : ℕ)
  /-- next at `offer`, for the first time or after a `poll` -/
  | offering (message : MqttMessage) (handle : ℕ) (polled : Bool)
  | polling (message : MqttMessage) (handle : ℕ)
  | returned (result : Bool)
  | thrown
deriving DecidableEq

/-- The checks at the beginning of `enqueue`. -/
def Enqueue.begin (s : Store) (message : MqttMessage) (clientId : Str) (qos : MqttQoS) : Enqueue :=
  if !IdUtil.validateClientId clientId then .returned false
  else if message.qos = .atMostOnce && !s.config.sessionQueueStoreQos0 then .returned false
  else .finding { message with clientId := clientId, qos := qos }

def Enqueue.exec (s : Store) : Enqueue → Option (Store × Enqueue)
  | .finding message =>
      match s.find with
      | none => some (s, .returned false)
      | some handle => some (s, .checking message handle)
  | .checking message handle =>
      if s.removed handle then some (s, .returned false)
      else some (s, .offering message handle false)
  | .offering message handle _ =>
      match s.deref handle with
      | none => some (s, .thrown)
      | some q =>
          if q.hasSpace 1 then
            some ({ s with
              stored := some { q with items := q.items ++ [message] }
              log := s.log ++ [message] }, .returned true)
          else some (s, .polling message handle)
  | .polling message handle =>
      match s.deref handle with
      | none => some (s, .thrown)
      | some q =>
          some ({ s with stored := some { q with items := q.items.tail } },
            .offering message handle true)
  | .returned _ => none
  | .thrown => none

/-- Where `queue(clientId, true)` is.  No items stand for `null`, too. -/
inductive Reopen where
  /-- next at `ignite.queue` for the old queue -/
  | finding
  /-- next at `removed` -/
  | checking (handle : ℕ)
  /-- next to copy the items -/
  | copying (handle : ℕ)
  /-- next at `close` -/
  | closing (handle : ℕ) (items : List MqttMessage)
  /-- next at `ignite.queue` for the new queue -/
  | creating (items : List MqttMessage)
  /-- next at `addAll` -/
  | filling (handle : ℕ) (items : List MqttMessage)
  | finished
  | thrown
deriving DecidableEq

def Reopen.exec (s : Store) : Reopen → Option (Store × Reopen)
  | .finding =>
      match s.find with
      | none => some (s, .creating [])
      | some handle => some (s, .checking handle)
  | .checking handle =>
      if s.removed handle then some (s, .creating []) else some (s, .copying handle)
  | .copying handle =>
      match s.deref handle with
      | none => some (s, .thrown)
      | some q => some (s, .closing handle q.items)
  | .closing handle items =>
      some ((if s.removed handle then s else { s with stored := none }), .creating items)
  | .creating items =>
      match s.stored with
      | some q => some (s, .filling q.id items)
      | none =>
          some ({ s with
            stored := some ⟨s.created, s.capacity, []⟩
            created := s.created + 1 }, .filling s.created items)
  | .filling handle items =>
      if items.isEmpty then some (s, .finished)
      else
        match s.deref handle with
        | none => some (s, .thrown)
        | some q =>
            let kept := (openQueue s.capacity items).items
            -- `addAll` adds all of them or none
            if q.hasSpace kept.length then
              some ({ s with stored := some { q with items := q.items ++ kept } }, .finished)
            else some (s, .finished)
  | .finished => none
  | .thrown => none

structure State where
  store : Store
  reopen : Reopen
  enqueues : List Enqueue

inductive Action where
  /-- another call of `enqueue` -/
  | call (message : MqttMessage) (clientId : Str) (qos : MqttQoS)
  /-- the next access of an `enqueue` -/
  | enqueue (index : ℕ)
  /-- the next access of `queue(clientId, true)` -/
  | reopen

namespace State

def step (s : State) : Action → Option State
  | .call message clientId qos =>
      some { s with enqueues := s.enqueues ++ [.begin s.store message clientId qos] }
  | .enqueue index =>
      s.enqueues[index]?.bind fun e =>
        (e.exec s.store).map fun r =>
          { s with store := r.1, enqueues := s.enqueues.set index r.2 }
  | .reopen => (s.reopen.exec s.store).map fun r => { s with store := r.1, reopen := r.2 }

/-- Everything is done. -/
structure Finished (s : State) : Prop where
  reopen : s.reopen = .finished
  enqueues : ∀ e ∈ s.enqueues, e = .thrown ∨ ∃ result, e = .returned result

instance (s : State) : Decidable s.Finished :=
  decidable_of_iff (s.reopen = .finished ∧
    ∀ e ∈ s.enqueues, e = .thrown ∨ ∃ result, e = .returned result)
    ⟨fun h => ⟨h.1, h.2⟩, fun h => ⟨h.1, h.2⟩⟩

end State

/-! ### What is lost -/

/-- The items are the log without a first part, and if there is such a part, then the capacity is a
bound and at least as many items are left, or are about to be put in. -/
def Suffix (capacity : ℤ) (log items : List MqttMessage) (coming : ℕ) : Prop :=
  ∃ k ≤ log.length, items = log.drop k ∧
    (k = 0 ∨ 0 < capacity ∧ capacity ≤ items.length + coming)

/-- **Nothing is lost**: an item is missing only if as many newer ones were put in as the capacity
says, and the others are there in the order in which they were put in. -/
def Kept (s : Store) : Prop := Suffix s.capacity s.log s.items 0

/-- The `enqueue` has polled the stored queue, and not yet offered its message again. -/
def Enqueue.owes (s : Store) : Enqueue → Bool
  | .offering _ handle true => decide (s.find = some handle)
  | _ => false

/-- The `enqueue` is about to poll the stored queue. -/
def Enqueue.polls (s : Store) : Enqueue → Bool
  | .polling _ handle => decide (s.find = some handle)
  | _ => false

/-- The next access of the `enqueue` puts its message into the stored queue. -/
def Enqueue.puts (s : Store) : Enqueue → Bool
  | .offering _ handle _ => (s.deref handle).any fun q => q.hasSpace 1
  | _ => false

namespace Reopen

def isCopying : Reopen → Bool
  | .copying _ => true
  | _ => false

/-- The items are copied, and the stored queue is still the old one or does not hold them yet. -/
def isBetween : Reopen → Bool
  | .closing .. => true
  | .filling _ items => !items.isEmpty
  | _ => false

end Reopen

/-- No message is put into a queue between the copy and the end of the refill, if there is
something to refill, and at the copy no `enqueue` is between a `poll` and its next `offer`. -/
def State.Safe (s : State) : Action → Prop
  | .enqueue index => ∀ e ∈ s.enqueues[index]?, e.puts s.store = true → s.reopen.isBetween = false
  | .reopen => s.reopen.isCopying = true → ∀ e ∈ s.enqueues, e.owes s.store = false
  | .call .. => True

instance (s : State) : ∀ action, Decidable (s.Safe action)
  | .enqueue _ => inferInstanceAs (Decidable (∀ e ∈ _, _ → _))
  | .reopen => inferInstanceAs (Decidable (_ → ∀ e ∈ _, _))
  | .call .. => inferInstanceAs (Decidable True)

/-! ### One access of an `enqueue` -/

/-- The queue that an `enqueue` works on. -/
def Enqueue.handle : Enqueue → Option ℕ
  | .checking _ handle => some handle
  | .offering _ handle _ => some handle
  | .polling _ handle => some handle
  | _ => none

variable {s s' : Store} {e e' : Enqueue} {es : List Enqueue} {i : ℕ}

lemma Store.deref_eq_some {handle : ℕ} {q : IgniteQueue} :
    s.deref handle = some q ↔ s.stored = some q ∧ q.id = handle := by
  simp [Store.deref, Option.filter_eq_some_iff]

lemma Store.find_of_deref {handle : ℕ} {q : IgniteQueue} (h : s.deref handle = some q) :
    s.find = some handle := by
  obtain ⟨hstored, rfl⟩ := Store.deref_eq_some.1 h
  rw [Store.find, hstored]
  rfl

lemma Store.removed_of_find {handle : ℕ} (h : s.find = some handle) : s.removed handle = false := by
  obtain ⟨q, hq, hid⟩ := Option.map_eq_some_iff.1 h
  simp only [Store.removed, Store.deref_eq_some.2 ⟨hq, hid⟩, Option.isNone_some]

lemma Store.find_ne_of_deref {handle : ℕ} (h : s.deref handle = none) : s.find ≠ some handle := by
  intro hfind
  obtain ⟨q, hstored, hid⟩ := Option.map_eq_some_iff.1 hfind
  rw [Store.deref_eq_some.2 ⟨hstored, hid⟩] at h
  cases h

/-- What an access of an `enqueue` does: it keeps off the stored queue, puts its message into it,
finds it full, or polls it. -/
inductive Access (s : Store) (e : Enqueue) : Store → Enqueue → Prop where
  | off (e' : Enqueue) (howes : e.owes s = false) (howes' : e'.owes s = false)
      (hpolls' : e'.polls s = false) : Access s e s e'
  | put (q : IgniteQueue) (message : MqttMessage) (hstored : s.stored = some q)
      (hspace : q.hasSpace 1 = true) (hputs : e.puts s = true) :
      Access s e { s with
        stored := some { q with items := q.items ++ [message] }
        log := s.log ++ [message] } (.returned true)
  | full (q : IgniteQueue) (e' : Enqueue) (hstored : s.stored = some q)
      (hfull : q.hasSpace 1 = false) (howes' : e'.owes s = false) : Access s e s e'
  | poll (q : IgniteQueue) (e' : Enqueue) (hstored : s.stored = some q) (hpolls : e.polls s = true)
      (howes' : e'.owes s = true) (hpolls' : e'.polls s = false) :
      Access s e { s with stored := some { q with items := q.items.tail } } e'

lemma access_of_exec (h : e.exec s = some (s', e')) : Access s e s' e' := by
  cases e with
  | finding message =>
      simp only [Enqueue.exec] at h
      split at h
      all_goals
        obtain ⟨rfl, rfl⟩ := Prod.mk.injEq .. ▸ Option.some.inj h
        exact .off _ rfl rfl rfl
  | checking message handle =>
      simp only [Enqueue.exec] at h
      split_ifs at h
      all_goals
        obtain ⟨rfl, rfl⟩ := Prod.mk.injEq .. ▸ Option.some.inj h
        exact .off _ rfl rfl rfl
  | offering message handle polled =>
      simp only [Enqueue.exec] at h
      cases hderef : s.deref handle with
      | none =>
          rw [hderef] at h
          obtain ⟨rfl, rfl⟩ := Prod.mk.injEq .. ▸ Option.some.inj h
          refine .off _ ?_ rfl rfl
          have hne := Store.find_ne_of_deref hderef
          cases polled <;> simp [Enqueue.owes, hne]
      | some q =>
          rw [hderef] at h
          have hstored := (Store.deref_eq_some.1 hderef).1
          dsimp only at h
          split_ifs at h with hspace
          · obtain ⟨rfl, rfl⟩ := Prod.mk.injEq .. ▸ Option.some.inj h
            exact .put q message hstored hspace (by simp [Enqueue.puts, hderef, hspace])
          · obtain ⟨rfl, rfl⟩ := Prod.mk.injEq .. ▸ Option.some.inj h
            exact .full q _ hstored (by simpa using hspace) rfl
  | polling message handle =>
      simp only [Enqueue.exec] at h
      cases hderef : s.deref handle with
      | none =>
          rw [hderef] at h
          obtain ⟨rfl, rfl⟩ := Prod.mk.injEq .. ▸ Option.some.inj h
          exact .off _ rfl rfl rfl
      | some q =>
          rw [hderef] at h
          obtain ⟨rfl, rfl⟩ := Prod.mk.injEq .. ▸ Option.some.inj h
          have hfind := Store.find_of_deref hderef
          exact .poll q _ (Store.deref_eq_some.1 hderef).1 (by simp [Enqueue.polls, hfind])
            (by simp [Enqueue.owes, hfind]) rfl
  | returned result => cases h
  | thrown => cases h

/-- An `enqueue` works on the queue that it found, and all the time on that one. -/
lemma handle_of_exec (h : e.exec s = some (s', e')) {handle : ℕ} (hh : e'.handle = some handle) :
    e.handle = some handle ∨ s.find = some handle := by
  cases e with
  | finding message =>
      simp only [Enqueue.exec] at h
      split at h
      · obtain ⟨rfl, rfl⟩ := Prod.mk.injEq .. ▸ Option.some.inj h
        cases hh
      · next found hfind =>
          obtain ⟨rfl, rfl⟩ := Prod.mk.injEq .. ▸ Option.some.inj h
          obtain rfl := Option.some.inj hh
          exact Or.inr hfind
  | checking message found =>
      simp only [Enqueue.exec] at h
      split_ifs at h
      · obtain ⟨rfl, rfl⟩ := Prod.mk.injEq .. ▸ Option.some.inj h
        cases hh
      · obtain ⟨rfl, rfl⟩ := Prod.mk.injEq .. ▸ Option.some.inj h
        exact Or.inl hh
  | offering message found polled =>
      simp only [Enqueue.exec] at h
      split at h
      · obtain ⟨rfl, rfl⟩ := Prod.mk.injEq .. ▸ Option.some.inj h
        cases hh
      · split_ifs at h
        · obtain ⟨rfl, rfl⟩ := Prod.mk.injEq .. ▸ Option.some.inj h
          cases hh
        · obtain ⟨rfl, rfl⟩ := Prod.mk.injEq .. ▸ Option.some.inj h
          exact Or.inl hh
  | polling message found =>
      simp only [Enqueue.exec] at h
      split at h
      · obtain ⟨rfl, rfl⟩ := Prod.mk.injEq .. ▸ Option.some.inj h
        cases hh
      · obtain ⟨rfl, rfl⟩ := Prod.mk.injEq .. ▸ Option.some.inj h
        exact Or.inl hh
  | returned result => cases h
  | thrown => cases h

/-- The queue stays the same but for its items. -/
lemma Access.frame (h : Access s e s' e') :
    s'.find = s.find ∧ s'.config = s.config ∧ s'.created = s.created ∧
      ∀ q', s'.stored = some q' → ∃ q, s.stored = some q ∧ q'.id = q.id ∧
        q'.capacity = q.capacity := by
  cases h with
  | off => exact ⟨rfl, rfl, rfl, fun q' hq' => ⟨q', hq', rfl, rfl⟩⟩
  | full => exact ⟨rfl, rfl, rfl, fun q' hq' => ⟨q', hq', rfl, rfl⟩⟩
  | put q message hstored =>
      refine ⟨?_, rfl, rfl, fun q' hq' => ⟨q, hstored, ?_⟩⟩
      · simp [Store.find, hstored]
      · obtain rfl := Option.some.inj hq'
        exact ⟨rfl, rfl⟩
  | poll q e' hstored =>
      refine ⟨?_, rfl, rfl, fun q' hq' => ⟨q, hstored, ?_⟩⟩
      · simp [Store.find, hstored]
      · obtain rfl := Option.some.inj hq'
        exact ⟨rfl, rfl⟩

lemma owes_congr (h : s'.find = s.find) : Enqueue.owes s' = Enqueue.owes s := by
  funext e
  simp only [Enqueue.owes]
  rw [h]

lemma polls_congr (h : s'.find = s.find) : Enqueue.polls s' = Enqueue.polls s := by
  funext e
  simp only [Enqueue.polls]
  rw [h]

/-! ### Parts of the log -/

section Suffix

variable {capacity : ℤ} {log items : List MqttMessage} {m n : ℕ}

lemma Suffix.put (h : Suffix capacity log items m) (hle : m ≤ n + 1) (message : MqttMessage) :
    Suffix capacity (log ++ [message]) (items ++ [message]) n := by
  obtain ⟨k, hk, rfl, hcap⟩ := h
  refine ⟨k, ?_, (drop_append_of_le_length hk).symm, hcap.imp_right fun hcap => ⟨hcap.1, ?_⟩⟩
  · rw [length_append]
    omega
  · have hlength := hcap.2
    rw [length_append, length_singleton]
    push_cast
    omega

lemma Suffix.of_full (h : Suffix capacity log items m) (hpos : 0 < capacity)
    (hle : capacity ≤ items.length + n) : Suffix capacity log items n := by
  obtain ⟨k, hk, hitems, -⟩ := h
  exact ⟨k, hk, hitems, Or.inr ⟨hpos, hle⟩⟩

lemma Suffix.poll (h : Suffix capacity log items m) (hpos : 0 < capacity)
    (hle : capacity ≤ items.length + m) : Suffix capacity log items.tail (m + 1) := by
  obtain ⟨k, hk, rfl, -⟩ := h
  have hlength : (log.drop k).length ≤ (log.drop k).tail.length + 1 := by
    rw [length_tail]
    omega
  by_cases hend : k = log.length
  · refine ⟨k, hk, ?_, Or.inr ⟨hpos, ?_⟩⟩
    · rw [hend, drop_length]
      rfl
    · push_cast
      omega
  · refine ⟨k + 1, by omega, ?_, Or.inr ⟨hpos, ?_⟩⟩
    · rw [tail_drop]
    · push_cast
      omega

/-- The refill gives up the first items of those that are too many. -/
lemma Suffix.openQueue (h : Suffix capacity log items 0) :
    Suffix capacity log (openQueue capacity items).items 0 := by
  simp only [Stuart.openQueue]
  split_ifs with hover
  · obtain ⟨k, hk, rfl, -⟩ := h
    have hlength := length_drop (i := k) (l := log)
    refine ⟨k + ((log.drop k).length - capacity.toNat), ?_, ?_, Or.inr ⟨hover.1, ?_⟩⟩
    · omega
    · rw [drop_drop]
    · rw [length_drop]
      omega
  · exact h

end Suffix

/-! ### While the stored queue is what counts -/

/-- The items of the stored queue are what they should be, as far as the calls that owe an item go;
a call polls only if there are enough. -/
structure Open (s : Store) (es : List Enqueue) : Prop where
  suffix : Suffix s.capacity s.log s.items (es.countP (Enqueue.owes s))
  full : ∀ q, s.stored = some q → ∀ e ∈ es, e.polls s = true →
    0 < q.capacity ∧ q.capacity ≤ q.items.length + es.countP (Enqueue.owes s)

/-- The queue takes as many items as the configured capacity says. -/
def Roomy (capacity : ℤ) (q : IgniteQueue) : Prop :=
  0 < q.capacity → 0 < capacity ∧ capacity ≤ q.capacity

lemma hasSpace_one_false {q : IgniteQueue} (h : q.hasSpace 1 = false) :
    0 < q.capacity ∧ q.capacity ≤ q.items.length := by
  simp only [IgniteQueue.hasSpace, Nat.cast_one, decide_eq_false_iff_not, not_or] at h
  omega

/-- The calls of a list after one of them has gone on. -/
lemma mem_set_cases (hi : es[i]? = some e) {d : Enqueue} (hd : d ∈ es.set i e') :
    d = e' ∨ d ∈ es := by
  obtain ⟨j, hj⟩ := mem_iff_getElem?.1 hd
  rw [getElem?_set_of_some hi] at hj
  split_ifs at hj
  · exact Or.inl (Option.some.inj hj).symm
  · exact Or.inr (mem_of_getElem? hj)

lemma Open.access (h : Open s es) (hroomy : ∀ q, s.stored = some q → Roomy s.capacity q)
    (hi : es[i]? = some e) (hacc : Access s e s' e') : Open s' (es.set i e') := by
  obtain ⟨hfind, -⟩ := hacc.frame
  have hcount := Pool.countP_set_of_some hi (Enqueue.owes s) e'
  have hmem := mem_of_getElem? hi
  have hle := Bool.toNat_le (e.owes s)
  have hle' := Bool.toNat_le (e'.owes s)
  cases hacc with
  | off e' howes howes' hpolls' =>
      rw [howes, howes', Bool.toNat_false, Nat.add_zero, Nat.add_zero] at hcount
      refine ⟨hcount ▸ h.suffix, fun q hq d hd hpolls => ?_⟩
      rcases mem_set_cases hi hd with rfl | hd
      · rw [hpolls'] at hpolls
        cases hpolls
      · rw [hcount]
        exact h.full q hq d hd hpolls
  | put q message hstored hspace hputs =>
      have hitems : s.items = q.items := by simp [Store.items, hstored]
      refine ⟨?_, fun q' hq' d hd hpolls => ?_⟩
      · rw [owes_congr hfind]
        have hput := h.suffix.put (n := (es.set i (.returned true)).countP (Enqueue.owes s))
          (by omega) message
        rw [hitems] at hput
        exact hput
      · obtain rfl := Option.some.inj hq'
        rw [polls_congr hfind] at hpolls
        rw [owes_congr hfind]
        rcases mem_set_cases hi hd with rfl | hd
        · cases hpolls
        · obtain ⟨hpos, hlength⟩ := h.full q hstored d hd hpolls
          refine ⟨hpos, ?_⟩
          rw [length_append, length_singleton]
          push_cast
          omega
  | full q e' hstored hfull howes' =>
      have hitems : s.items = q.items := by simp [Store.items, hstored]
      obtain ⟨hpos, hlength⟩ := hasSpace_one_false hfull
      obtain ⟨hpos', hcap⟩ := hroomy q hstored hpos
      refine ⟨h.suffix.of_full hpos' ?_, fun q' hq' d hd hpolls => ?_⟩
      · rw [hitems]
        omega
      · obtain rfl := Option.some.inj (hstored.symm.trans hq')
        exact ⟨hpos, by omega⟩
  | poll q e' hstored hpolls howes' hpolls' =>
      have hitems : s.items = q.items := by simp [Store.items, hstored]
      obtain ⟨hpos, hlength⟩ := h.full q hstored e hmem hpolls
      obtain ⟨hpos', hcap⟩ := hroomy q hstored hpos
      have howes : e.owes s = false := by
        cases e with
        | polling message handle => rfl
        | _ => cases hpolls
      rw [howes, howes', Bool.toNat_false, Bool.toNat_true] at hcount
      have htail : q.items.length ≤ q.items.tail.length + 1 := by
        rw [length_tail]
        omega
      refine ⟨?_, fun q' hq' d hd hpolls => ?_⟩
      · rw [owes_congr hfind, show (es.set i e').countP (Enqueue.owes s) =
          es.countP (Enqueue.owes s) + 1 by omega]
        have hpoll := h.suffix.poll hpos' (by rw [hitems]; omega)
        rw [hitems] at hpoll
        exact hpoll
      · obtain rfl := Option.some.inj hq'
        rw [owes_congr hfind]
        dsimp only
        exact ⟨hpos, by omega⟩

/-! ### The invariant -/

/-- What holds at each place of `queue(clientId, true)`.  From the copy to the refill the copied
items are what counts. -/
def Stage (s : Store) (es : List Enqueue) : Reopen → Prop
  | .finding => Open s es
  | .checking handle => Open s es ∧ s.find = some handle
  | .copying handle => Open s es ∧ s.find = some handle
  | .closing handle items => s.find = some handle ∧ Suffix s.capacity s.log items 0
  | .creating items => s.stored = none ∧ Suffix s.capacity s.log items 0
  | .filling _ [] => Open s es
  | .filling handle items => s.stored = some ⟨handle, s.capacity, []⟩ ∧
      Suffix s.capacity s.log items 0 ∧ ∀ e ∈ es, e.owes s = false ∧ e.polls s = false
  | .finished => Open s es
  | .thrown => False

/-- A stage carries over to a store and calls that keep what it is about. -/
lemma Stage.imp {es' : List Enqueue} {reopen : Reopen} (h : Stage s es reopen)
    (hopen : Open s es → Open s' es') (hfind : s'.find = s.find)
    (hclosing : reopen.isBetween = true → ∀ items, Suffix s.capacity s.log items 0 →
      Suffix s'.capacity s'.log items 0)
    (hcreating : s.stored = none → s' = s)
    (hfilling : reopen.isBetween = true → ∀ handle, s.stored = some ⟨handle, s.capacity, []⟩ →
      (∀ e ∈ es, e.owes s = false ∧ e.polls s = false) →
        s'.stored = some ⟨handle, s'.capacity, []⟩ ∧
          ∀ e ∈ es', e.owes s' = false ∧ e.polls s' = false) : Stage s' es' reopen := by
  cases reopen with
  | finding => exact hopen h
  | checking handle => exact ⟨hopen h.1, hfind.trans h.2⟩
  | copying handle => exact ⟨hopen h.1, hfind.trans h.2⟩
  | closing handle items => exact ⟨hfind.trans h.1, hclosing rfl items h.2⟩
  | creating items =>
      rw [hcreating h.1]
      exact h
  | filling handle items =>
      cases items with
      | nil => exact hopen h
      | cons first rest =>
          obtain ⟨hstored, hsuffix, hnone⟩ := h
          obtain ⟨hstored', hnone'⟩ := hfilling rfl handle hstored hnone
          exact ⟨hstored', hclosing rfl _ hsuffix, hnone'⟩
  | finished => exact hopen h
  | thrown => exact h.elim

structure Inv (s : State) : Prop where
  handles : ∀ e ∈ s.enqueues, ∀ handle, e.handle = some handle → handle < s.store.created
  stored : ∀ q, s.store.stored = some q → q.id < s.store.created ∧ Roomy s.store.capacity q
  stage : Stage s.store s.enqueues s.reopen

/-- Without calls that owe an item nothing is coming. -/
lemma Open.suffix_of_none (h : Open s es) (hnone : ∀ e ∈ es, e.owes s = false) :
    Suffix s.capacity s.log s.items 0 := by
  have hcount : es.countP (Enqueue.owes s) = 0 := countP_eq_zero.2 fun e he => by simp [hnone e he]
  exact hcount ▸ h.suffix

/-- Without calls that owe or poll, the items only have to be a part of the log. -/
lemma open_of_none (hsuffix : Suffix s.capacity s.log s.items 0)
    (hnone : ∀ e ∈ es, e.owes s = false ∧ e.polls s = false) : Open s es := by
  have hcount : es.countP (Enqueue.owes s) = 0 := countP_eq_zero.2 fun e he => by simp [hnone e he]
  refine ⟨hcount ▸ hsuffix, fun q _ e he hpolls => ?_⟩
  rw [(hnone e he).2] at hpolls
  cases hpolls

/-- A call that works on another queue than the stored one neither owes nor polls. -/
lemma owes_polls_of_ne (h : ∀ handle, e.handle = some handle → s.find ≠ some handle) :
    e.owes s = false ∧ e.polls s = false := by
  cases e with
  | offering message handle polled =>
      have hne := h handle rfl
      cases polled <;> simp [Enqueue.owes, Enqueue.polls, hne]
  | polling message handle =>
      have hne := h handle rfl
      simp [Enqueue.owes, Enqueue.polls, hne]
  | _ => exact ⟨rfl, rfl⟩

variable {t t' : State}

lemma Inv.enqueue (h : Inv t) (hi : t.enqueues[i]? = some e)
    (hsafe : e.puts t.store = true → t.reopen.isBetween = false)
    (hexec : e.exec t.store = some (s', e')) :
    Inv { t with store := s', enqueues := t.enqueues.set i e' } := by
  have hacc := access_of_exec hexec
  obtain ⟨hfind, hconfig, hcreated, hqueue⟩ := hacc.frame
  have hcap : s'.capacity = t.store.capacity := congrArg Config.sessionQueueMaxCapacity hconfig
  have hopen : Open t.store t.enqueues → Open s' (t.enqueues.set i e') :=
    fun hopen => hopen.access (fun q hq => (h.stored q hq).2) hi hacc
  -- only a put changes the log
  have hlog : t.reopen.isBetween = true → s'.log = t.store.log := by
    intro hbetween
    cases hacc with
    | put q message hstored hspace hputs =>
        rw [hsafe hputs] at hbetween
        cases hbetween
    | _ => rfl
  refine ⟨fun d hd handle hh => ?_, fun q' hq' => ?_, ?_⟩
  · dsimp only
    rw [hcreated]
    rcases mem_set_cases hi hd with rfl | hd
    · rcases handle_of_exec hexec hh with hold | hold
      · exact h.handles e (mem_of_getElem? hi) handle hold
      · obtain ⟨q, hq, rfl⟩ := Option.map_eq_some_iff.1 hold
        exact (h.stored q hq).1
    · exact h.handles d hd handle hh
  · obtain ⟨q, hq, hid, hqcap⟩ := hqueue q' hq'
    obtain ⟨hlt, hroomy⟩ := h.stored q hq
    refine ⟨?_, ?_⟩
    · rw [hid]
      exact hcreated.symm ▸ hlt
    · rw [Roomy, hqcap, hcap]
      exact hroomy
  · refine h.stage.imp hopen hfind (fun hbetween items hsuffix => ?_) (fun hnone => ?_)
      fun hbetween handle hstored hnone => ?_
    · rw [hcap, hlog hbetween]
      exact hsuffix
    · cases hacc with
      | off => rfl
      | put q message hstored => cases hnone.symm.trans hstored
      | full q e' hstored => cases hnone.symm.trans hstored
      | poll q e' hstored => cases hnone.symm.trans hstored
    · cases hacc with
      | off e' howes howes' hpolls' =>
          refine ⟨hstored, fun d hd => ?_⟩
          rcases mem_set_cases hi hd with rfl | hd
          · exact ⟨howes', hpolls'⟩
          · exact hnone d hd
      | put q message hstored' hspace hputs =>
          rw [hsafe hputs] at hbetween
          cases hbetween
      | full q e' hstored' hfull =>
          -- the new queue is empty
          obtain rfl := Option.some.inj (hstored.symm.trans hstored')
          have hpos := hasSpace_one_false hfull
          simp only [length_nil, Nat.cast_zero] at hpos
          omega
      | poll q e' hstored' hpolls =>
          rw [(hnone e (mem_of_getElem? hi)).2] at hpolls
          cases hpolls

/-- A call that begins works on no queue yet. -/
lemma handle_begin (message : MqttMessage) (clientId : Str) (qos : MqttQoS) :
    (Enqueue.begin s message clientId qos).handle = none := by
  simp only [Enqueue.begin]
  split_ifs <;> rfl

lemma Inv.call (h : Inv t) (message : MqttMessage) (clientId : Str) (qos : MqttQoS) :
    Inv { t with enqueues := t.enqueues ++ [.begin t.store message clientId qos] } := by
  obtain ⟨e, he⟩ : ∃ e, e = Enqueue.begin t.store message clientId qos := ⟨_, rfl⟩
  have hhandle : e.handle = none := he ▸ handle_begin message clientId qos
  obtain ⟨howes, hpolls⟩ : e.owes t.store = false ∧ e.polls t.store = false :=
    owes_polls_of_ne fun handle hh => by cases hhandle.symm.trans hh
  rw [← he]
  have hopen : Open t.store t.enqueues → Open t.store (t.enqueues ++ [e]) := by
    intro hopen
    have hcount : (t.enqueues ++ [e]).countP (Enqueue.owes t.store) =
        t.enqueues.countP (Enqueue.owes t.store) := by simp [countP_append, howes]
    refine ⟨hcount ▸ hopen.suffix, fun q hq d hd hd' => ?_⟩
    rw [hcount]
    rcases mem_append.1 hd with hd | hd
    · exact hopen.full q hq d hd hd'
    · rw [mem_singleton.1 hd, hpolls] at hd'
      cases hd'
  refine ⟨fun d hd handle hh => ?_, h.stored, ?_⟩
  · rcases mem_append.1 hd with hd | hd
    · exact h.handles d hd handle hh
    · rw [mem_singleton.1 hd, hhandle] at hh
      cases hh
  · refine h.stage.imp hopen rfl (fun _ _ hsuffix => hsuffix) (fun _ => rfl)
      fun _ handle hstored hnone => ⟨hstored, fun d hd => ?_⟩
    rcases mem_append.1 hd with hd | hd
    · exact hnone d hd
    · rw [mem_singleton.1 hd]
      exact ⟨howes, hpolls⟩

/-- What is kept of the items fits into the new queue. -/
lemma hasSpace_openQueue (id : ℕ) (capacity : ℤ) (items : List MqttMessage) :
    IgniteQueue.hasSpace ⟨id, capacity, []⟩ (openQueue capacity items).items.length = true := by
  have hbound : 0 < capacity → ((openQueue capacity items).items.length : ℤ) ≤ capacity :=
    openQueue_bounded capacity items
  simp only [IgniteQueue.hasSpace, length_nil, decide_eq_true_eq]
  by_cases hpos : capacity ≤ 0
  · exact Or.inl hpos
  · have hle := hbound (by omega)
    exact Or.inr (by simpa using hle)

/-- The new queue has no calls yet. -/
lemma Inv.create (h : Inv t) {items : List MqttMessage} (hreopen : t.reopen = .creating items) :
    Inv { t with
      store := { t.store with
        stored := some ⟨t.store.created, t.store.capacity, []⟩
        created := t.store.created + 1 }
      reopen := .filling t.store.created items } := by
  have hstage := h.stage
  rw [hreopen] at hstage
  have hnone : ∀ e ∈ t.enqueues,
      e.owes { t.store with
        stored := some ⟨t.store.created, t.store.capacity, []⟩
        created := t.store.created + 1 } = false ∧
      e.polls { t.store with
        stored := some ⟨t.store.created, t.store.capacity, []⟩
        created := t.store.created + 1 } = false := by
    intro e he
    refine owes_polls_of_ne fun handle hh heq => ?_
    have hlt := h.handles e he handle hh
    have hid : t.store.created = handle := Option.some.inj heq
    omega
  refine ⟨fun e he handle hh => Nat.lt_succ_of_lt (h.handles e he handle hh), fun q hq => ?_, ?_⟩
  · obtain rfl := Option.some.inj hq
    exact ⟨Nat.lt_succ_self _, fun hpos => ⟨hpos, le_rfl⟩⟩
  · cases items with
    | nil => exact open_of_none hstage.2 hnone
    | cons first rest => exact ⟨rfl, hstage.2, hnone⟩

lemma Inv.fill (h : Inv t) {handle : ℕ} {first : MqttMessage} {rest : List MqttMessage}
    (hreopen : t.reopen = .filling handle (first :: rest)) {r : Store × Reopen}
    (hexec : t.reopen.exec t.store = some r) :
    Inv { t with store := r.1, reopen := r.2 } := by
  have hstage := h.stage
  rw [hreopen] at hstage hexec
  obtain ⟨hstored, hsuffix, hnone⟩ := hstage
  have hderef : t.store.deref handle = some ⟨handle, t.store.capacity, []⟩ :=
    Store.deref_eq_some.2 ⟨hstored, rfl⟩
  have hspace := hasSpace_openQueue handle t.store.capacity (first :: rest)
  simp only [Reopen.exec, isEmpty_cons, Bool.false_eq_true, if_false, hderef, hspace, if_true,
    Option.some.injEq] at hexec
  subst hexec
  have hfind : Store.find { t.store with stored := some ⟨handle, t.store.capacity,
      [] ++ (openQueue t.store.capacity (first :: rest)).items⟩ } = t.store.find := by
    simp [Store.find, hstored]
  refine ⟨h.handles, fun q hq => ?_, open_of_none hsuffix.openQueue fun e he => ?_⟩
  · obtain rfl := Option.some.inj hq
    have hroomy : Roomy t.store.capacity ⟨handle, t.store.capacity, []⟩ := fun hpos =>
      ⟨hpos, le_rfl⟩
    exact ⟨(h.stored _ hstored).1, hroomy⟩
  · rw [owes_congr hfind, polls_congr hfind]
    exact hnone e he

lemma Inv.reopen (h : Inv t) (hsafe : t.reopen.isCopying = true →
      ∀ e ∈ t.enqueues, e.owes t.store = false) {r : Store × Reopen}
    (hexec : t.reopen.exec t.store = some r) : Inv { t with store := r.1, reopen := r.2 } := by
  have hstage := h.stage
  cases hreopen : t.reopen with
  | finding =>
      rw [hreopen] at hstage hexec
      simp only [Reopen.exec] at hexec
      cases hfind : t.store.find with
      | none =>
          rw [hfind] at hexec
          obtain rfl := Option.some.inj hexec
          have hnone : t.store.stored = none := Option.map_eq_none_iff.1 hfind
          refine ⟨h.handles, h.stored, hnone, ?_⟩
          have hsuffix := hstage.suffix_of_none fun e _ =>
            (owes_polls_of_ne fun handle _ heq => by cases hfind.symm.trans heq).1
          rw [show t.store.items = [] by simp [Store.items, hnone]] at hsuffix
          exact hsuffix
      | some handle =>
          rw [hfind] at hexec
          obtain rfl := Option.some.inj hexec
          exact ⟨h.handles, h.stored, hstage, hfind⟩
  | checking handle =>
      rw [hreopen] at hstage hexec
      simp only [Reopen.exec, Store.removed_of_find hstage.2, Bool.false_eq_true, if_false] at hexec
      obtain rfl := Option.some.inj hexec
      exact ⟨h.handles, h.stored, hstage⟩
  | copying handle =>
      rw [hreopen] at hstage hexec hsafe
      obtain ⟨q, hq, hid⟩ := Option.map_eq_some_iff.1 hstage.2
      simp only [Reopen.exec, Store.deref_eq_some.2 ⟨hq, hid⟩] at hexec
      obtain rfl := Option.some.inj hexec
      refine ⟨h.handles, h.stored, hstage.2, ?_⟩
      have hsuffix := hstage.1.suffix_of_none (hsafe rfl)
      rw [show t.store.items = q.items by simp [Store.items, hq]] at hsuffix
      exact hsuffix
  | closing handle items =>
      rw [hreopen] at hstage hexec
      simp only [Reopen.exec, Store.removed_of_find hstage.1, Bool.false_eq_true, if_false] at hexec
      obtain rfl := Option.some.inj hexec
      exact ⟨h.handles, fun q hq => (by cases hq), rfl, hstage.2⟩
  | creating items =>
      rw [hreopen] at hstage hexec
      simp only [Reopen.exec, hstage.1] at hexec
      obtain rfl := Option.some.inj hexec
      exact h.create hreopen
  | filling handle items =>
      cases items with
      | nil =>
          rw [hreopen] at hstage hexec
          obtain rfl := Option.some.inj hexec
          exact ⟨h.handles, h.stored, hstage⟩
      | cons first rest => exact h.fill hreopen hexec
  | finished =>
      rw [hreopen] at hexec
      cases hexec
  | thrown =>
      rw [hreopen] at hexec
      cases hexec

lemma Inv.step (h : Inv t) {action : Action} (hsafe : t.Safe action)
    (hstep : t.step action = some t') : Inv t' := by
  cases action with
  | call message clientId qos =>
      obtain rfl := Option.some.inj hstep
      exact h.call message clientId qos
  | enqueue index =>
      obtain ⟨e, hi, hstep⟩ := Option.bind_eq_some_iff.1 hstep
      obtain ⟨⟨s', e'⟩, hexec, rfl⟩ := Option.map_eq_some_iff.1 hstep
      exact h.enqueue hi (hsafe e hi) hexec
  | reopen =>
      obtain ⟨r, hexec, rfl⟩ := Option.map_eq_some_iff.1 hstep
      exact h.reopen hsafe hexec

/-! ### One call on its own -/

/-- The loop of `enqueue` without anything in between is that of `offerExt`. -/
lemma run_offering (q : IgniteQueue) (message : MqttMessage) (polled : Bool) (reopen : Reopen)
    (hstored : s.stored = some q) :
    ∃ n s', run State.step ⟨s, reopen, [.offering message q.id polled]⟩
        (replicate n (.enqueue 0)) = some ⟨s', reopen, [.returned true]⟩ ∧
      s'.log = s.log ++ [message] ∧ s'.stored = some ⟨q.id, q.capacity,
        (BoundedIgniteQueue.addExt ⟨q.capacity, q.items⟩ message).2.items⟩ := by
  simp only [BoundedIgniteQueue.addExt]
  generalize (0 : ℤ) = count
  obtain ⟨id, capacity, items⟩ := q
  induction items generalizing s polled count with
  | nil =>
      have hspace : IgniteQueue.hasSpace ⟨id, capacity, []⟩ 1 = true := by
        simp only [IgniteQueue.hasSpace, length_nil, decide_eq_true_eq]
        omega
      have hderef : s.deref id = some ⟨id, capacity, []⟩ := Store.deref_eq_some.2 ⟨hstored, rfl⟩
      refine ⟨1, { s with
        stored := some ⟨id, capacity, [message]⟩, log := s.log ++ [message] }, ?_, rfl, rfl⟩
      simp [State.step, Enqueue.exec, hderef, hspace]
  | cons first rest ih =>
      have hderef : s.deref id = some ⟨id, capacity, first :: rest⟩ :=
        Store.deref_eq_some.2 ⟨hstored, rfl⟩
      have hiff : IgniteQueue.hasSpace ⟨id, capacity, first :: rest⟩ 1 =
          !BoundedQueue.isFull ⟨capacity, first :: rest⟩ := by
        simp only [IgniteQueue.hasSpace, BoundedQueue.isFull, ← decide_not, decide_eq_decide]
        push_cast
        omega
      cases hfull : BoundedQueue.isFull ⟨capacity, first :: rest⟩ with
      | false =>
          rw [hfull] at hiff
          refine ⟨1, { s with
            stored := some ⟨id, capacity, first :: rest ++ [message]⟩
            log := s.log ++ [message] }, ?_, rfl, ?_⟩
          · simp [State.step, Enqueue.exec, hderef, hiff]
          · simp [BoundedIgniteQueue.offerExtFrom, hfull]
      | true =>
          rw [hfull] at hiff
          obtain ⟨n, s', hrun, hlog, hstored'⟩ :=
            ih (s := { s with stored := some ⟨id, capacity, rest⟩ }) true 1 rfl
          refine ⟨n + 2, s', ?_, hlog, ?_⟩
          · rw [show replicate (n + 2) (Action.enqueue 0) =
              .enqueue 0 :: .enqueue 0 :: replicate n (.enqueue 0) from rfl]
            simpa [State.step, Enqueue.exec, hderef, hiff] using hrun
          · rw [hstored', BoundedIgniteQueue.offerExtFrom, if_pos hfull]

/-- A reopening without anything in between leaves what `openQueue` of the cache service does. -/
lemma run_reopen (q : IgniteQueue) (es : List Enqueue) (hstored : s.stored = some q) :
    run State.step ⟨s, .finding, es⟩ (replicate 6 .reopen) = some ⟨{ s with
      stored := some ⟨s.created, s.capacity, (openQueue s.capacity q.items).items⟩
      created := s.created + 1 }, .finished, es⟩ := by
  have hfind : s.find = some q.id := by simp [Store.find, hstored]
  have hderef : s.deref q.id = some q := Store.deref_eq_some.2 ⟨hstored, rfl⟩
  have hderef' : Store.deref { s with
      stored := some ⟨s.created, s.capacity, []⟩
      created := s.created + 1 } s.created = some ⟨s.created, s.capacity, []⟩ :=
    Store.deref_eq_some.2 ⟨rfl, rfl⟩
  have hspace := hasSpace_openQueue s.created s.capacity q.items
  have hremoved : s.removed q.id = false := by simp [Store.removed, hderef]
  have hcapacity : Store.capacity { s with
      stored := some ⟨s.created, s.capacity, []⟩
      created := s.created + 1 } = s.capacity := rfl
  have hclosed : Store.capacity { s with stored := none } = s.capacity := rfl
  show run State.step ⟨s, .finding, es⟩ [.reopen, .reopen, .reopen, .reopen, .reopen, .reopen] = _
  simp only [run_cons, run_nil, State.step, Reopen.exec, hfind, hderef, hremoved, Option.map_some,
    Option.bind_some, Bool.false_eq_true, if_false]
  cases hitems : q.items with
  | nil =>
      have hnil : (openQueue s.capacity []).items = [] := by simp [openQueue]
      simp [hnil, hclosed]
  | cons first rest =>
      rw [hitems] at hspace
      simp [hclosed, hderef', hcapacity, hspace]

/-! ### Results -/

/-- Before the first call: what is stored, with the items of the queue in the log. -/
def State.start (config : Config) (stored : Option IgniteQueue) : State :=
  let created := match stored with
    | none => 0
    | some q => q.id + 1
  let log := match stored with
    | none => []
    | some q => q.items
  ⟨⟨config, stored, created, log⟩, .finding, []⟩

lemma inv_start (config : Config) (stored : Option IgniteQueue)
    (hroomy : ∀ q, stored = some q → Roomy config.sessionQueueMaxCapacity q) :
    Inv (.start config stored) := by
  refine ⟨fun e he => absurd he not_mem_nil, fun q hq => ?_, ?_⟩
  · obtain rfl : stored = some q := hq
    exact ⟨Nat.lt_succ_self _, hroomy q rfl⟩
  · refine open_of_none ⟨0, Nat.zero_le _, ?_, Or.inl rfl⟩ fun e he => absurd he not_mem_nil
    cases stored <;> rfl

/-- **Reopening a queue loses nothing** if no message is put into a queue between the copy and the
end of the refill, and none is owed at the copy.  The stored queue may be missing, or be one of a
capacity that is not smaller than the configured one. -/
theorem kept_run (config : Config) (stored : Option IgniteQueue)
    (hroomy : ∀ q, stored = some q → Roomy config.sessionQueueMaxCapacity q)
    (actions : List Action) (t : State)
    (hsafe : AllSteps State.step State.Safe (.start config stored) actions)
    (hrun : run State.step (.start config stored) actions = some t) (hdone : t.Finished) :
    Kept t.store := by
  have h := invariant_run (fun _ _ _ _ hI hP hs => Inv.step hI hP hs)
    (inv_start config stored hroomy) hsafe hrun
  have hstage := h.stage
  rw [hdone.reopen] at hstage
  have hcount : t.enqueues.countP (Enqueue.owes t.store) = 0 := by
    refine countP_eq_zero.2 fun e he => ?_
    rcases hdone.enqueues e he with rfl | ⟨result, rfl⟩
    · simp [Enqueue.owes]
    · simp [Enqueue.owes]
  rw [Kept, ← hcount]
  exact hstage.suffix

/-- Queues of two messages. -/
def smallConfig : Config := { sampleConfig with sessionQueueMaxCapacity := 2 }

def numbered (messageId : ℤ) : MqttMessage := { sampleMessage with messageId }

/-- A message is put into the full queue before the reopening, and one after it. -/
def orderlyActions : List Action :=
  [.call (numbered 3) ['c'] .atLeastOnce] ++ replicate 5 (.enqueue 0) ++ replicate 6 .reopen ++
    [.call (numbered 4) ['c'] .atLeastOnce] ++ replicate 5 (.enqueue 1)

def orderlyState : State :=
  (run State.step (.start smallConfig (some ⟨0, 2, [numbered 1, numbered 2]⟩))
    orderlyActions).get (by decide)

theorem kept_run_orderly : Kept orderlyState.store :=
  kept_run smallConfig (some ⟨0, 2, [numbered 1, numbered 2]⟩)
    (fun q hq => Option.some.inj hq ▸ fun _ => ⟨by decide, le_rfl⟩) orderlyActions orderlyState
    (by decide) (Option.some_get (by decide)).symm (by decide)

/-- A message is put into the old queue after the copy and before the close. -/
def hastyActions : List Action :=
  [.call (numbered 1) ['c'] .atLeastOnce, .enqueue 0, .enqueue 0, .reopen, .reopen, .reopen,
    .enqueue 0, .reopen, .reopen, .reopen]

/-- The only message is lost: its `enqueue` returned true, and the queue is empty. -/
theorem not_kept_run :
    ¬∀ t, run State.step (.start smallConfig (some ⟨0, 2, []⟩)) hastyActions = some t →
      t.Finished → Kept t.store := by
  intro hall
  have hmap : (run State.step (.start smallConfig (some ⟨0, 2, []⟩)) hastyActions).map
      (fun t => (t.reopen, t.enqueues, t.store.items, t.store.log.length)) =
        some (.finished, [.returned true], [], 1) := by decide
  obtain ⟨t, hrun, heq⟩ := Option.map_eq_some_iff.1 hmap
  simp only [Prod.mk.injEq] at heq
  obtain ⟨hreopen, henqueues, hitems, hlog⟩ := heq
  obtain ⟨k, hk, hdrop, hcap⟩ := hall t hrun ⟨hreopen, by simp [henqueues]⟩
  have hlength := congrArg List.length hdrop
  rw [hitems, length_drop, hlog, length_nil] at hlength
  rw [hitems, length_nil] at hcap
  omega

end QueueCache

end Stuart
