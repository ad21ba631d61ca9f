/-
The retry timers of a wrapper.

A message in the window that is not acknowledged must be retried some day, so its packet id needs a
timer: a key of the expiring map, or an expiry event that was raised and that `retry` has not
handled yet (`Timed`).  `dequeue` and `inflight` start the timer with the storing.  `retry` takes
its event away: it gives up the message, or it starts a timer for the id under which the message is
stored now, which is the old one when only the release is sent again, or when a persistent session
is not connected.  A persistent wrapper starts over stored messages, and `open` retries each of
them.

The second part says that the keys in the wrapper are those of the expiring map.
-/
import Mathlib.Data.Int.Interval
import Stuart.Lib.Runs
import Stuart.Ext.ExpiringMap
import Stuart.Sessions.SessionFrame

namespace Stuart

open List Lib

namespace Timers

open SessionWrapper

variable {kind : SessionKind}

/-- A wrapper, and the expiry events that were raised and are not handled yet. -/
structure Session (kind : SessionKind) where
  wrapper : SessionWrapper kind
  events : List ℤ

inductive Op where
  | publishMessage (message : MqttMessage) (qos : MqttQoS)
  | receivePuback (messageId : ℤ)
  | receivePubrec (messageId : ℤ)
  | receivePubcomp (messageId : ℤ)
  | publishCachedMessage
  /-- the time of a packet id is over, and its expiry event is raised -/
  | expire (messageId : ℤ)
  /-- an expiry event is handled -/
  | retry (messageId : ℤ)
  /-- the endpoint is accepted or lost -/
  | connectivity (isConnected : Bool)
  /-- the client connects again, and the wrapper is opened again -/
  | reuse

/-- The client connects again: a persistent wrapper gets the new endpoint. -/
def reuse : {kind : SessionKind} → SessionWrapper kind → Option (SessionWrapper kind)
  | .transient, _ => none
  | .persistent, w => some (PersistentSessionWrapper.openWrapper
      (PersistentSessionWrapper.refreshEndpoint w (.create (w.endpoint.id + 1) w.thisClientId
        false)))

def step (s : Session kind) : Op → Option (Session kind)
  | .publishMessage message qos => some { s with wrapper := s.wrapper.publishMessage message qos }
  | .receivePuback messageId => some { s with wrapper := s.wrapper.receivePuback messageId }
  | .receivePubrec messageId => some { s with wrapper := s.wrapper.receivePubrec messageId }
  | .receivePubcomp messageId => some { s with wrapper := s.wrapper.receivePubcomp messageId }
  | .publishCachedMessage => some { s with wrapper := s.wrapper.publishCachedMessage }
  | .expire messageId =>
      if messageId ∈ s.wrapper.timeouts then
        some ⟨s.wrapper.deleteInflightTimeout messageId, s.events ++ [messageId]⟩
      else none
  | .retry messageId =>
      if messageId ∈ s.events then some ⟨s.wrapper.retry messageId, s.events.erase messageId⟩
      else none
  | .connectivity isConnected =>
      some { s with wrapper := { s.wrapper with
        endpoint := { s.wrapper.endpoint with isConnected := isConnected } } }
  | .reuse => (reuse s.wrapper).map fun w => { s with wrapper := w }

/-- What the methods of a transient wrapper need: its endpoint stays connected. -/
def StepOk (s : Session kind) : Op → Prop
  | .connectivity _ => True
  | _ => kind = .transient → s.wrapper.endpoint.isConnected = true

/-- A wrapper as it is used first: a transient one is new, and a persistent one is opened over what
is stored. -/
inductive Starts : {kind : SessionKind} → SessionWrapper kind → Prop where
  | transient (config : Config) (endpoint : MqttEndpoint) (hr : endpoint.InRange) :
      Starts (TransientSessionWrapper.new config endpoint)
  | persistent (config : Config) (endpoint : MqttEndpoint) (queue : List MqttMessage)
      (inflights : BoundedIgniteMapUnsafe ℤ MqttMessage) (ledger : Ledger)
      (hr : endpoint.InRange) (hk : @Inflights.Keyed .persistent inflights) :
      Starts (PersistentSessionWrapper.openWrapper
        (PersistentSessionWrapper.new config endpoint queue inflights ledger))

/-! ### Timers and events -/

/-- Every inflight message has a timer, or its packet id is among the events. -/
def Timed (events : ℤ → Prop) (w : SessionWrapper kind) : Prop :=
  ∀ key, w.inflights.get key ≠ none → key ∈ w.timeouts ∨ events key

variable {w w' : SessionWrapper kind} {events events' : ℤ → Prop} {message : MqttMessage}
  {messageId : ℤ}

lemma Timed.of_eq (h : Timed events w) (hinflights : w'.inflights = w.inflights)
    (htimeouts : w'.timeouts = w.timeouts) : Timed events w' := by
  intro key hkey
  rw [htimeouts]
  exact h key (hinflights ▸ hkey)

lemma Timed.mono (h : Timed events w) (himp : ∀ key, events key → events' key) :
    Timed events' w :=
  fun key hkey => (h key hkey).imp_right (himp key)

/-- The event of a packet id under which nothing is stored is not needed. -/
lemma Timed.of_get_none (h : Timed (fun key => key = messageId ∨ events key) w)
    (hnone : w.inflights.get messageId = none) : Timed events w := by
  intro key hkey
  refine (h key hkey).imp_right fun hevent => hevent.resolve_left ?_
  rintro rfl
  exact hkey hnone

/-- Storing a message with its timer makes up for the event of its packet id. -/
lemma Timed.store (h : Timed (fun key => key = messageId ∨ events key) w) :
    Timed events ((w.putInflight messageId message).saveInflightTimeout messageId) := by
  intro key hkey
  show key ∈ w.timeouts.insert messageId ∨ events key
  rw [mem_insert_iff]
  obtain ⟨value, hvalue⟩ := Option.ne_none_iff_exists'.1 hkey
  rcases Inflights.get_put hvalue with ⟨heq, -⟩ | hold
  · exact Or.inl (Or.inl heq)
  · rcases h key (by simp [hold]) with htimer | heq | hevent
    · exact Or.inl (Or.inr htimer)
    · exact Or.inl (Or.inl heq)
    · exact Or.inr hevent

/-- What is stored after a message was taken out was stored before, under another packet id. -/
lemma get_of_remove {m : Inflights kind} {key : ℤ} (h : (m.remove messageId).get key ≠ none) :
    key ≠ messageId ∧ m.get key ≠ none := by
  obtain ⟨value, hvalue⟩ := Option.ne_none_iff_exists'.1 h
  refine ⟨?_, by simp [Inflights.get_remove hvalue]⟩
  rintro rfl
  exact h (Inflights.get_remove_self m key)

/-- A message that is given up needs no event. -/
lemma Timed.remove (h : Timed (fun key => key = messageId ∨ events key) w) :
    Timed events (w.removeInflight messageId) := by
  intro key hkey
  obtain ⟨hne, hold⟩ := get_of_remove hkey
  exact (h key hold).imp_right fun hevent => hevent.resolve_left hne

/-- An acknowledged message loses its timer. -/
lemma Timed.removeBoth (h : Timed events w) :
    Timed events ((w.removeInflight messageId).deleteInflightTimeout messageId) := by
  intro key hkey
  obtain ⟨hne, hold⟩ := get_of_remove hkey
  exact (h key hold).imp_left fun htimer => mem_filter.2 ⟨htimer, by simpa using hne⟩

/-- A timer whose time is over leaves an event. -/
lemma Timed.expire (h : Timed events w) :
    Timed (fun key => events key ∨ key = messageId) (w.deleteInflightTimeout messageId) := by
  intro key hkey
  by_cases heq : key = messageId
  · exact Or.inr (Or.inr heq)
  · rcases h key hkey with htimer | hevent
    · exact Or.inl (mem_filter.2 ⟨htimer, by simpa using heq⟩)
    · exact Or.inr (Or.inl hevent)

/-! ### The methods -/

lemma Timed.publish (h : Timed events w) (message : MqttMessage) (everPublished : Bool) :
    Timed events (w.publish message everPublished).2 := by
  refine h.of_eq (publish_inflights w message everPublished) ?_
  simp only [SessionWrapper.publish]
  split <;> rfl

lemma Timed.publishRelease (h : Timed events w) (messageId : ℤ) :
    Timed events (w.publishRelease messageId).2 := by
  refine h.of_eq (publishRelease_inflights w messageId) ?_
  simp only [SessionWrapper.publishRelease]
  split <;> rfl

lemma Timed.enqueue (h : Timed events w) (message : MqttMessage) :
    Timed events (w.enqueue message).2 := by
  simp only [SessionWrapper.enqueue]
  by_cases hadded : (w.addExt message).1 ≥ 0
  · rw [if_pos hadded]
    exact h
  · rw [if_neg hadded]
    exact h

/-- On a connected endpoint a polled message has a packet id, and is stored with a timer. -/
lemma Timed.sendPolled (h : Timed events w) (hc : w.endpoint.isConnected = true)
    (hr : w.endpoint.InRange) (message : MqttMessage) :
    Timed events (w.sendPolled message).2 := by
  rw [SessionWrapper.sendPolled]
  dsimp only
  by_cases hfailed : message.qos = .atMostOnce ∧ (w.publish message false).1 ≠ 0
  · rw [if_pos hfailed]
    exact h.publish message false
  · rw [if_neg hfailed]
    obtain ⟨w₀, hw₀, htimed, hc₀, hr₀⟩ : ∃ w₀, (if message.qos = .atMostOnce then
        (w.publish message false).2 else w) = w₀ ∧ Timed events w₀ ∧
        w₀.endpoint.isConnected = true ∧ w₀.endpoint.InRange := by
      refine ⟨_, rfl, ?_⟩
      split_ifs
      · have hkept := kept_publish w message false
        exact ⟨h.publish message false, hkept.isConnected.trans hc, hkept.inRange hr⟩
      · exact ⟨h, hc, hr⟩
    rw [hw₀, if_pos (nextMessageId_of_connected hc₀ hr₀).2]
    exact (htimed.mono fun key => Or.inr).store.publish _ _

/-- The loop of `dequeue`, by induction on what is left of the queue. -/
lemma Timed.dequeueFrom (h : Timed events w) (hr : w.endpoint.InRange)
    (items : List MqttMessage) : Timed events (w.dequeueFrom items) := by
  induction items generalizing w with
  | nil => exact h
  | cons message rest ih =>
      simp only [SessionWrapper.dequeueFrom]
      by_cases hstop : (!w.endpoint.isConnected || w.isInflightFull) = true
      · rw [if_pos hstop]
        exact h
      · rw [if_neg hstop]
        have hc : w.endpoint.isConnected = true := by simp_all
        have hset : Timed events (w.setQueue rest) := h
        have hsend := hset.sendPolled hc hr message
        have hrange := (kept_sendPolled (w.setQueue rest) message).inRange hr
        cases hpolled : (w.setQueue rest).sendPolled message with
        | mk goesOn w' =>
            rw [hpolled] at hsend hrange
            cases goesOn with
            | true => exact ih hsend hrange
            | false => exact hsend

lemma Timed.publishCachedMessage (h : Timed events w) (hr : w.endpoint.InRange) :
    Timed events w.publishCachedMessage := h.dequeueFrom hr w.queue.items

lemma Timed.inflight (h : Timed events w) (message : MqttMessage) :
    Timed events (w.inflight message).2 := by
  rw [SessionWrapper.inflight]
  dsimp only
  split_ifs
  · exact h.enqueue message
  · exact (h.mono fun key => Or.inr).store.publish _ _
  · exact h.enqueue message

lemma Timed.handleMessage (h : Timed events w) (message : MqttMessage) :
    Timed events (w.handleMessage message).2 := by
  simp only [SessionWrapper.handleMessage]
  split_ifs
  · exact h.enqueue message
  · exact h.publish message false
  · exact h.inflight message

lemma Timed.publishMessage (h : Timed events w) (hr : w.endpoint.InRange) (message : MqttMessage)
    (qos : MqttQoS) : Timed events (w.publishMessage message qos) := by
  have hledger : Timed events { w with ledger := w.ledger.accept qos } := h
  have hhandle := hledger.handleMessage (w.copyMqttMessage message qos)
  unfold SessionWrapper.publishMessage
  dsimp only
  split_ifs
  · exact hhandle.publishCachedMessage ((kept_handleMessage _ _).inRange hr)
  · exact hhandle

lemma Timed.receiveFinal (h : Timed events w) (hr : w.endpoint.InRange) (messageId : ℤ) :
    Timed events (w.receiveFinal messageId) := by
  have hledger : Timed events { w with
      ledger := w.ledger.acknowledge (w.inflights.get messageId) } := h
  exact hledger.removeBoth.publishCachedMessage hr

/-- A PUBREC changes a stored message. -/
lemma Timed.receivePubrec (h : Timed events w) (messageId : ℤ) :
    Timed events (w.receivePubrec messageId) := by
  simp only [SessionWrapper.receivePubrec]
  cases hget : w.inflights.get messageId with
  | none => exact h
  | some message =>
      intro key hkey
      obtain ⟨value, hvalue⟩ := Option.ne_none_iff_exists'.1 hkey
      rcases Inflights.get_put hvalue with ⟨rfl, -⟩ | hold
      · exact h key (by simp [hget])
      · exact h key (by simp [hold])

/-- A retry makes up for the event of the packet id that the message had. -/
lemma Timed.retryInflight (h : Timed (fun key => key = message.messageId ∨ events key) w)
    (hr : w.endpoint.InRange) (hok : kind = .transient → w.endpoint.isConnected = true) :
    Timed events (w.retryInflight message).2 := by
  rw [SessionWrapper.retryInflight]
  dsimp only
  split_ifs with hstay hpos hkind
  · exact h.store.publishRelease _
  · exact (h.remove.mono fun key => Or.inr).store.publish _ _
  · exact h.store
  · have hc : w.endpoint.isConnected = true := hok (by cases kind <;> simp_all)
    exact absurd (nextMessageId_of_connected hc hr).2 hpos

lemma Timed.retry (h : Timed (fun key => key = messageId ∨ events key) w)
    (hr : w.endpoint.InRange) (hk : w.inflights.Keyed)
    (hok : kind = .transient → w.endpoint.isConnected = true) :
    Timed events (w.retry messageId) := by
  simp only [SessionWrapper.retry]
  cases hget : w.inflights.get messageId with
  | none => exact h.of_get_none hget
  | some message =>
      dsimp only
      split_ifs
      · have hledger : Timed (fun key => key = messageId ∨ events key)
            { w with ledger := w.ledger.discard [message] 1 } := h
        exact hledger.remove.publishCachedMessage hr
      · obtain rfl := hk messageId message hget
        exact h.retryInflight hr hok

/-! ### open -/

/-- The loop of `retryInflight()`: what was stored has a timer when its key is through. -/
lemma timed_retryInflights {w : SessionWrapper .persistent} (hr : w.endpoint.InRange)
    (hk : w.inflights.Keyed) : Timed (fun _ => False) (PersistentSessionWrapper.retryInflights w)
      := by
  have hstart : Timed (· ∈ BoundedIgniteMapUnsafe.set w.inflights) w := fun key hkey =>
    Or.inr ((BoundedIgniteMapUnsafe.mem_set w.inflights key).2 hkey)
  simp only [PersistentSessionWrapper.retryInflights]
  generalize BoundedIgniteMapUnsafe.set w.inflights = keys at hstart ⊢
  induction keys generalizing w with
  | nil => exact hstart.mono fun key hmem => absurd hmem not_mem_nil
  | cons key keys ih =>
      have hkey := hstart.mono fun key' hmem => mem_cons.1 hmem
      rw [foldl_cons]
      cases hget : w.inflights.get key with
      | none => exact ih hr hk (hkey.of_get_none hget)
      | some message =>
          obtain rfl := hk key message hget
          have hkept := kept_retryInflight w message
          exact ih (hkept.inRange hr) (hkept.keyed hk)
            (hkey.retryInflight hr fun h => SessionKind.noConfusion h)

lemma timed_openWrapper {w : SessionWrapper .persistent} (hr : w.endpoint.InRange)
    (hk : w.inflights.Keyed) : Timed (fun _ => False) (PersistentSessionWrapper.openWrapper w) :=
  (timed_retryInflights hr hk).publishCachedMessage
    ((PersistentSessionWrapper.kept_retryInflights w).inRange hr)

/-! ### The expiring map -/

namespace CacheConst

def MESSAGE_EXPIRER_VALUE : Str := []

end CacheConst

/-- The packet ids with a timer are the keys of the expiring map. -/
def Keys (m : Expirer.ExpiringMap ℤ Str) (timeouts : List ℤ) : Prop :=
  ∀ messageId, messageId ∈ m.keys ↔ messageId ∈ timeouts

section ExpiringMap

variable {m : Expirer.ExpiringMap ℤ Str}

/-- There are fewer packet ids than a map without a size of its own takes. -/
lemma size_lt_maxSize (hmax : m.maxSize = 2147483647)
    (hids : ∀ messageId ∈ m.keys, 0 < messageId ∧ messageId ≤ MsgConst.MAX_MESSAGE_ID) :
    m.size < m.maxSize := by
  have hcard : m.keys.toFinset.card = m.keys.length := toFinset_card_of_nodup m.nodup
  have hsub : m.keys.toFinset ⊆ Finset.Icc 1 MsgConst.MAX_MESSAGE_ID := by
    intro messageId hmem
    obtain ⟨hpos, hle⟩ := hids messageId (mem_toFinset.1 hmem)
    exact Finset.mem_Icc.2 ⟨hpos, hle⟩
  have hle := Finset.card_le_card hsub
  have hsize : m.size = m.keys.length := by
    simp only [Expirer.ExpiringMap.size, Expirer.ExpiringMap.keys]
    rw [length_map]
  rw [hcard, Int.card_Icc] at hle
  have hmaxId : MsgConst.MAX_MESSAGE_ID = 65535 := rfl
  rw [hmaxId] at hle
  omega

/-- `saveInflightTimeout`; a timer that runs already goes on. -/
lemma Keys.save (h : Keys m w.timeouts) (hmax : m.maxSize = 2147483647)
    (hids : ∀ messageId ∈ w.timeouts, 0 < messageId ∧ messageId ≤ MsgConst.MAX_MESSAGE_ID)
    (now messageId : ℤ) : Keys (m.put now messageId CacheConst.MESSAGE_EXPIRER_VALUE).2
      (w.saveInflightTimeout messageId).timeouts := by
  have hroom := size_lt_maxSize hmax fun key hkey => hids key ((h key).1 hkey)
  intro key
  rw [Expirer.ExpiringMap.mem_keys_put (Or.inr hroom), h key]
  exact mem_insert_iff.symm

/-- `deleteInflightTimeout`. -/
lemma Keys.delete (h : Keys m w.timeouts) (messageId : ℤ) :
    Keys (m.remove messageId).2 (w.deleteInflightTimeout messageId).timeouts := by
  intro key
  rw [Expirer.ExpiringMap.mem_keys_remove, h key]
  show _ ↔ key ∈ w.timeouts.filter (· ≠ messageId)
  rw [mem_filter, and_comm]
  simp

/-- Some packet ids expire one after the other. -/
lemma run_expire {s : Session kind} {ids : List ℤ} (hnodup : ids.Nodup)
    (hids : ∀ messageId ∈ ids, messageId ∈ s.wrapper.timeouts) :
    ∃ s', Lib.run step s (ids.map Op.expire) = some s' ∧ s'.events = s.events ++ ids ∧
      ∀ key, key ∈ s'.wrapper.timeouts ↔ key ∈ s.wrapper.timeouts ∧ key ∉ ids := by
  induction ids generalizing s with
  | nil => exact ⟨s, rfl, (append_nil _).symm, fun key => by simp⟩
  | cons messageId ids ih =>
      obtain ⟨hnot, hnodup⟩ := nodup_cons.1 hnodup
      have hstep : step s (.expire messageId) =
          some ⟨s.wrapper.deleteInflightTimeout messageId, s.events ++ [messageId]⟩ :=
        if_pos (hids messageId mem_cons_self)
      obtain ⟨s', hrun, hevents, hkeys⟩ := ih (s := ⟨s.wrapper.deleteInflightTimeout messageId,
        s.events ++ [messageId]⟩) hnodup fun key hkey => by
          have hne : key ≠ messageId := by
            rintro rfl
            exact hnot hkey
          exact mem_filter.2 ⟨hids key (mem_cons_of_mem _ hkey), by simpa using hne⟩
      refine ⟨s', ?_, by rw [hevents, append_assoc]; rfl, fun key => ?_⟩
      · rw [map_cons, run_cons, hstep]
        exact hrun
      · rw [hkeys key]
        show key ∈ s.wrapper.timeouts.filter (· ≠ messageId) ∧ _ ↔ _
        rw [mem_filter, mem_cons, not_or, and_assoc]
        simp

/-- What the expirer does at once is a run in which each of its keys expires: the listener is
called for those, in this order, and the others keep their timers. -/
theorem Keys.run {s : Session kind} (h : Keys m s.wrapper.timeouts) (now key : ℤ) :
    ∃ s', Lib.run step s ((m.run now key).1.map Op.expire) = some s' ∧
      s'.events = s.events ++ (m.run now key).1 ∧ Keys (m.run now key).2 s'.wrapper.timeouts := by
  have hperm := m.keys_run now key
  obtain ⟨hnodup, -, hdisjoint⟩ := nodup_append.1 (hperm.nodup_iff.1 m.nodup)
  obtain ⟨s', hrun, hevents, hkeys⟩ := run_expire (s := s) hnodup fun messageId hmem =>
    (h messageId).1 (hperm.mem_iff.2 (mem_append_left _ hmem))
  refine ⟨s', hrun, hevents, fun messageId => ?_⟩
  rw [hkeys, ← h messageId, hperm.mem_iff, mem_append]
  constructor
  · intro hmem
    exact ⟨Or.inr hmem, fun hevent => hdisjoint messageId hevent messageId hmem rfl⟩
  · rintro ⟨hevent | hmem, hnot⟩
    · exact absurd hevent hnot
    · exact hmem

end ExpiringMap

/-! ### Runs -/

/-- What holds of every session: every inflight message can be retried. -/
structure Inv (s : Session kind) : Prop where
  timed : Timed (· ∈ s.events) s.wrapper
  inRange : s.wrapper.endpoint.InRange
  keyed : s.wrapper.inflights.Keyed

/-- A method that neither raises nor handles an event. -/
lemma Inv.method {s : Session kind} (h : Inv s) (htimed : Timed (· ∈ s.events) w)
    (hkept : Kept s.wrapper w) : Inv { s with wrapper := w } :=
  ⟨htimed, hkept.inRange h.inRange, hkept.keyed h.keyed⟩

lemma inv_start {w : SessionWrapper kind} (h : Starts w) : Inv ⟨w, []⟩ := by
  cases h with
  | transient config endpoint hr =>
      refine ⟨fun key hkey => absurd (PlainMap.get_empty key) hkey, hr, fun key message h => ?_⟩
      exact absurd ((PlainMap.get_empty key).symm.trans h) (by simp)
  | persistent config endpoint queue inflights ledger hr hk =>
      have hkept := PersistentSessionWrapper.kept_openWrapper
        (PersistentSessionWrapper.new config endpoint queue inflights ledger)
      exact ⟨(timed_openWrapper hr hk).mono fun key => False.elim, hkept.inRange hr,
        hkept.keyed hk⟩

/-- One step, by cases on what happens. -/
lemma Inv.step {s s' : Session kind} {op : Op} (h : Inv s) (hok : StepOk s op)
    (hs : Timers.step s op = some s') : Inv s' := by
  cases op with
  | publishMessage message qos =>
      obtain rfl := Option.some.inj hs
      exact h.method (h.timed.publishMessage h.inRange message qos) (kept_publishMessage _ _ _)
  | receivePuback messageId =>
      obtain rfl := Option.some.inj hs
      exact h.method (h.timed.receiveFinal h.inRange messageId) (kept_receiveFinal _ _)
  | receivePubrec messageId =>
      obtain rfl := Option.some.inj hs
      exact h.method (h.timed.receivePubrec messageId) (kept_receivePubrec _ _)
  | receivePubcomp messageId =>
      obtain rfl := Option.some.inj hs
      exact h.method (h.timed.receiveFinal h.inRange messageId) (kept_receiveFinal _ _)
  | publishCachedMessage =>
      obtain rfl := Option.some.inj hs
      exact h.method (h.timed.publishCachedMessage h.inRange) (kept_publishCachedMessage _)
  | expire messageId =>
      simp only [Timers.step] at hs
      split_ifs at hs
      obtain rfl := Option.some.inj hs
      refine ⟨h.timed.expire.mono fun key hevent => ?_, h.inRange, h.keyed⟩
      rcases hevent with hevent | rfl
      · exact mem_append_left _ hevent
      · exact mem_append_right _ (mem_singleton.2 rfl)
  | retry messageId =>
      simp only [Timers.step] at hs
      split_ifs at hs
      obtain rfl := Option.some.inj hs
      have htimed : Timed (fun key => key = messageId ∨ key ∈ s.events.erase messageId)
          s.wrapper := by
        refine h.timed.mono fun key hevent => ?_
        by_cases heq : key = messageId
        · exact Or.inl heq
        · exact Or.inr ((mem_erase_of_ne heq).2 hevent)
      have hkept := kept_retry s.wrapper messageId
      exact ⟨htimed.retry h.inRange h.keyed hok, hkept.inRange h.inRange, hkept.keyed h.keyed⟩
  | connectivity isConnected =>
      obtain rfl := Option.some.inj hs
      exact ⟨h.timed, h.inRange, h.keyed⟩
  | reuse =>
      cases kind with
      | transient => cases hs
      | persistent =>
          obtain rfl := Option.some.inj hs
          obtain ⟨w, hw⟩ : ∃ w, w = PersistentSessionWrapper.refreshEndpoint s.wrapper
            (.create (s.wrapper.endpoint.id + 1) s.wrapper.thisClientId false) := ⟨_, rfl⟩
          have hr : w.endpoint.InRange := hw ▸ MqttEndpoint.inRange_create _ _ _
          have hk : w.inflights.Keyed := hw ▸ h.keyed
          have hkept := PersistentSessionWrapper.kept_openWrapper w
          rw [← hw]
          exact ⟨(timed_openWrapper hr hk).mono fun key => False.elim, hkept.inRange hr,
            hkept.keyed hk⟩

/-- In every run every packet id in the window has a timer, or an event that is not handled yet. -/
theorem timed_run {w : SessionWrapper kind} {t : Session kind} {ops : List Op} (hw : Starts w)
    (hok : AllSteps step StepOk ⟨w, []⟩ ops) (hrun : run step ⟨w, []⟩ ops = some t)
    (messageId : ℤ) (hget : t.wrapper.inflights.get messageId ≠ none) :
    messageId ∈ t.wrapper.timeouts ∨ messageId ∈ t.events :=
  (invariant_run (fun _ _ _ _ h hok hs => h.step hok hs) (inv_start hw) hok hrun).timed messageId
    hget

lemma stepOk_persistent (s : Session .persistent) (op : Op) : StepOk s op := by
  cases op with
  | connectivity isConnected => trivial
  | publishMessage message qos => exact fun h => nomatch h
  | receivePuback messageId => exact fun h => nomatch h
  | receivePubrec messageId => exact fun h => nomatch h
  | receivePubcomp messageId => exact fun h => nomatch h
  | publishCachedMessage => exact fun h => nomatch h
  | expire messageId => exact fun h => nomatch h
  | retry messageId => exact fun h => nomatch h
  | reuse => exact fun h => nomatch h

/-- A persistent wrapper over one stored message, which is retried before the client is there. -/
def storedInflights : BoundedIgniteMapUnsafe ℤ MqttMessage :=
  (BoundedIgniteMapUnsafe.create 10).insert 5 { sampleMessage with messageId := 5 }

lemma keyed_storedInflights : @Inflights.Keyed .persistent storedInflights := by
  intro messageId message hget
  have hinsert := BoundedIgniteMapUnsafe.get_insert (BoundedIgniteMapUnsafe.create 10) 5 messageId
    { sampleMessage with messageId := 5 }
  have hstored := hinsert.symm.trans hget
  split_ifs at hstored with heq
  · rw [← Option.some.inj hstored, heq]
  · cases hstored

theorem timed_run_stored :
    ∃ t, run step ⟨PersistentSessionWrapper.openWrapper (PersistentSessionWrapper.new sampleConfig
        sampleEndpoint [] storedInflights .empty), []⟩ [.expire 1, .connectivity false, .retry 1] =
        some t ∧
      t.wrapper.inflights.get 1 ≠ none ∧ (1 ∈ t.wrapper.timeouts ∨ 1 ∈ t.events) := by
  have hr : sampleEndpoint.InRange := MqttEndpoint.inRange_create 0 "c".toList true
  refine ⟨_, rfl, by decide, ?_⟩
  exact @timed_run .persistent _ _ [.expire 1, .connectivity false, .retry 1]
    (.persistent sampleConfig sampleEndpoint [] storedInflights .empty hr keyed_storedInflights)
    ((allSteps_true _ _).imp fun s op _ => stepOk_persistent s op) rfl 1 (by decide)

end Timers

end Stuart
