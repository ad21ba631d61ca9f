/-
A call that runs on its own.

The methods of a transient session are modelled twice: in `SessionWrapper` each one runs to
completion on values, in `Calls` one access at a time on a heap of messages that other calls may
hold as well.  Here a call of the second model runs while no other one does, and it is shown to do
what the method of the first one does (`exists_run_calls`).

A session mirrors a wrapper (`Mirrors`) if its references, looked up in the heap, give the queue
and the inflight messages of the wrapper.  A method that changes a message through its reference
changes it in the wrapper only where it is stored, so a message must not be stored twice, and it
must be stored under its own packet id.
-/
import Stuart.Sessions.Window

namespace Stuart

open List Lib

namespace Calls

/-! ### The two models -/

/-- The session holds what the wrapper holds, and the flags are as given. -/
structure Mirrors (s : State) (w : SessionWrapper .transient) (queueCas inflightCas : Bool) :
    Prop where
  config : w.config = s.config
  thisClientId : w.thisClientId = s.thisClientId
  endpoint : w.endpoint = s.endpoint
  queue : w.queue = s.queue.map s.heap
  inflights : ∀ key, w.inflights.get key = (s.inflights.get key).map s.heap
  timeouts : w.timeouts = s.timeouts
  accepted : w.ledger.accepted.length = s.created
  uid : ∀ m, m < s.created → (s.heap m).uid = m
  keyed : ∀ key m, s.inflights.get key = some m → (s.heap m).messageId = key
  once : ∀ m, owned s m ≤ (decide (m < s.created)).toNat
  queueCas : s.queueCas = queueCas
  inflightCas : s.inflightCas = inflightCas

/-- A message that only the call itself holds. -/
def InHand (s : State) (m : ℕ) : Prop := m < s.created ∧ owned s m = 0

variable {s : State} {w : SessionWrapper .transient} {queueCas inflightCas : Bool} {m : ℕ}
  {messageId key : ℤ}

lemma ne_of_get (hm : owned s m = 0) {m' : ℕ} (hget : s.inflights.get key = some m') : m' ≠ m := by
  rintro rfl
  have hvalues : m' ∉ PlainMap.values s.inflights :=
    count_eq_zero.1 (Nat.eq_zero_of_add_eq_zero_left hm)
  exact hvalues ((PlainMap.mem_values_iff _ _).2 ⟨key, hget⟩)

/-- A message that is neither queued nor stored can change. -/
lemma map_update_of_not_owned (hm : owned s m = 0) (message : MqttMessage) :
    s.queue.map (Function.update s.heap m message) = s.queue.map s.heap ∧
      ∀ key, (s.inflights.get key).map (Function.update s.heap m message) =
        (s.inflights.get key).map s.heap := by
  have hqueue : m ∉ s.queue.items := count_eq_zero.1 (Nat.eq_zero_of_add_eq_zero_right hm)
  constructor
  · refine congrArg (BoundedQueue.mk s.queue.capacity) (map_congr_left fun m' hm' => ?_)
    exact Function.update_of_ne (ne_of_mem_of_not_mem hm' hqueue) _ _
  · intro key
    refine Option.map_congr fun m' hget => ?_
    exact Function.update_of_ne (ne_of_get hm hget) _ _

section Modify

variable {f : MqttMessage → MqttMessage}

lemma modify_self : (s.modify m f).heap m = f (s.heap m) := Function.update_self _ _ _

lemma modify_of_ne {m' : ℕ} (h : m' ≠ m) : (s.modify m f).heap m' = s.heap m' :=
  Function.update_of_ne h _ _

/-- The ghost number stays. -/
lemma modify_uid (huid : (f (s.heap m)).uid = (s.heap m).uid) (m' : ℕ) :
    ((s.modify m f).heap m').uid = (s.heap m').uid := by
  by_cases heq : m' = m
  · rw [heq, modify_self, huid]
  · rw [modify_of_ne heq]

end Modify

lemma get_putInflight (w : SessionWrapper .transient) (key key' : ℤ) (message : MqttMessage) :
    (w.putInflight key message).inflights.get key' =
      if key' = key then some message else w.inflights.get key' :=
  PlainMap.get_put (K := ℤ) (V := MqttMessage) w.inflights key key' message

lemma get_removeInflight (w : SessionWrapper .transient) (key key' : ℤ) :
    (w.removeInflight key).inflights.get key' =
      if key' = key then none else w.inflights.get key' :=
  PlainMap.get_remove (K := ℤ) (V := MqttMessage) w.inflights key key'

namespace Mirrors

variable (h : Mirrors s w queueCas inflightCas)
include h

lemma isEmpty_eq : w.queue.items.isEmpty = s.queue.items.isEmpty := by
  rw [h.queue]
  exact isEmpty_map

lemma isInflightFull_eq : w.isInflightFull = s.isInflightFull := by
  have hlength : (PlainMap.values w.inflights).length = (PlainMap.values s.inflights).length := by
    refine PlainMap.length_values_eq fun key => ?_
    have hget : PlainMap.get w.inflights key = (s.inflights.get key).map s.heap := h.inflights key
    rw [hget, Option.map_eq_none_iff]
  unfold SessionWrapper.isInflightFull Inflights.isFull State.isInflightFull
  dsimp only
  rw [hlength, h.config]

/-- The ids of the next PUBLISH are the same. -/
lemma nextMessageId_eq (hc : s.endpoint.isConnected = true) :
    IdUtil.nextMessageId w.endpoint = nextId s.endpoint.lastMessageId := by
  rw [h.endpoint]
  simp only [IdUtil.nextMessageId]
  rw [if_neg (by simp [hc])]
  rfl

/-- The flags and the log are not part of a wrapper. -/
lemma setQueueCas (flag : Bool) : Mirrors { s with queueCas := flag } w flag inflightCas :=
  ⟨h.config, h.thisClientId, h.endpoint, h.queue, h.inflights, h.timeouts, h.accepted, h.uid,
    h.keyed, h.once, rfl, h.inflightCas⟩

lemma setInflightCas (flag : Bool) : Mirrors { s with inflightCas := flag } w queueCas flag :=
  ⟨h.config, h.thisClientId, h.endpoint, h.queue, h.inflights, h.timeouts, h.accepted, h.uid,
    h.keyed, h.once, h.queueCas, rfl⟩

lemma setLog (log : List Event) : Mirrors { s with log := log } w queueCas inflightCas :=
  ⟨h.config, h.thisClientId, h.endpoint, h.queue, h.inflights, h.timeouts, h.accepted, h.uid,
    h.keyed, h.once, h.queueCas, h.inflightCas⟩

lemma setEndpoint (endpoint : MqttEndpoint) :
    Mirrors { s with endpoint := endpoint } { w with endpoint := endpoint } queueCas inflightCas :=
  ⟨h.config, h.thisClientId, rfl, h.queue, h.inflights, h.timeouts, h.accepted, h.uid, h.keyed,
    h.once, h.queueCas, h.inflightCas⟩

/-- A wrapper counts the messages only in its ledger. -/
lemma setLedger {l : Ledger} (hl : l.accepted = w.ledger.accepted) :
    Mirrors s { w with ledger := l } queueCas inflightCas :=
  ⟨h.config, h.thisClientId, h.endpoint, h.queue, h.inflights, h.timeouts, hl ▸ h.accepted, h.uid,
    h.keyed, h.once, h.queueCas, h.inflightCas⟩

lemma saveTimeout (messageId : ℤ) :
    Mirrors { s with timeouts := s.timeouts.insert messageId } (w.saveInflightTimeout messageId)
      queueCas inflightCas :=
  ⟨h.config, h.thisClientId, h.endpoint, h.queue, h.inflights,
    congrArg (List.insert messageId) h.timeouts, h.accepted, h.uid, h.keyed, h.once, h.queueCas,
    h.inflightCas⟩

lemma deleteTimeout (messageId : ℤ) :
    Mirrors { s with timeouts := s.timeouts.filter (· ≠ messageId) }
      (w.deleteInflightTimeout messageId) queueCas inflightCas :=
  ⟨h.config, h.thisClientId, h.endpoint, h.queue, h.inflights,
    congrArg (List.filter (· ≠ messageId)) h.timeouts, h.accepted, h.uid, h.keyed, h.once,
    h.queueCas, h.inflightCas⟩

/-- An access that does not take a stored message in its hand leaves every message in one place. -/
lemma once_exec {t : Access} (hhand : ∀ m, holds m t = true → InHand s m)
    (hold : ∀ m old messageId before, t ≠ .removeOld m old messageId before) (m : ℕ) :
    owned (exec s t).1 m ≤ (decide (m < s.created)).toNat := by
  have hplaces := places_exec (s := s)
    (fun m old messageId before ht => absurd ht (hold m old messageId before)) m
  have honce := h.once m
  cases hm : holds m t with
  | false =>
      rw [hm, Bool.toNat_false] at hplaces
      omega
  | true =>
      obtain ⟨hlt, hzero⟩ := hhand m hm
      rw [hm, Bool.toNat_true, hzero] at hplaces
      rw [decide_eq_true hlt, Bool.toNat_true]
      omega

/-- A new message. -/
lemma create (message : MqttMessage) (qos : MqttQoS) :
    Mirrors (start (.publishMessage message qos) s).1 { w with ledger := w.ledger.accept qos }
      queueCas inflightCas ∧
    InHand (start (.publishMessage message qos) s).1 s.created ∧
    (start (.publishMessage message qos) s).1.heap s.created = w.copyMqttMessage message qos := by
  have hnew : owned s s.created = 0 := by
    have honce := h.once s.created
    rw [decide_eq_false (Nat.lt_irrefl _)] at honce
    exact Nat.le_zero.1 honce
  have hcopy : w.copyMqttMessage message qos =
      { message with uid := s.created, clientId := s.thisClientId, qos := qos } := by
    simp only [SessionWrapper.copyMqttMessage]
    rw [h.accepted, h.thisClientId]
  dsimp only [start]
  rw [← hcopy]
  obtain ⟨hqueue, hinflights⟩ := map_update_of_not_owned hnew (w.copyMqttMessage message qos)
  refine ⟨⟨h.config, h.thisClientId, h.endpoint, h.queue.trans hqueue.symm,
    fun key => (h.inflights key).trans (hinflights key).symm, h.timeouts, ?_, ?_, ?_, ?_,
    h.queueCas, h.inflightCas⟩, ⟨Nat.lt_succ_self _, hnew⟩, Function.update_self _ _ _⟩
  · simp [Ledger.accept, h.accepted]
  · intro m hm
    dsimp only at hm ⊢
    by_cases heq : m = s.created
    · rw [heq, Function.update_self, hcopy]
    · rw [Function.update_of_ne heq]
      exact h.uid m (by omega)
  · intro key m hget
    exact (congrArg MqttMessage.messageId (Function.update_of_ne (ne_of_get hnew hget) _ _)).trans
      (h.keyed key m hget)
  · intro m
    have honce := h.once m
    by_cases hm : m < s.created
    · rw [decide_eq_true (hm.trans (Nat.lt_succ_self _))]
      exact honce.trans (Bool.toNat_le _)
    · rw [decide_eq_false hm] at honce
      exact honce.trans (Nat.zero_le _)

/-- A message in the hand of the call is changed. -/
lemma modify (hm : InHand s m) {f : MqttMessage → MqttMessage}
    (huid : (f (s.heap m)).uid = (s.heap m).uid) :
    Mirrors (s.modify m f) w queueCas inflightCas := by
  obtain ⟨hqueue, hinflights⟩ := map_update_of_not_owned hm.2 (f (s.heap m))
  refine ⟨h.config, h.thisClientId, h.endpoint, h.queue.trans hqueue.symm,
    fun key => (h.inflights key).trans (hinflights key).symm, h.timeouts, h.accepted, ?_, ?_,
    h.once, h.queueCas, h.inflightCas⟩
  · intro m' hm'
    rw [modify_uid huid]
    exact h.uid m' hm'
  · intro key m' hget
    rw [modify_of_ne (ne_of_get hm.2 hget)]
    exact h.keyed key m' hget

/-- A message in the hand of the call is stored. -/
lemma put (hm : InHand s m) (hid : (s.heap m).messageId = messageId) :
    Mirrors { s with inflights := s.inflights.put messageId m }
      (w.putInflight messageId (s.heap m)) queueCas inflightCas := by
  have honce := h.once_exec (t := .put .inflight m messageId 0)
    (fun m' hm' => of_decide_eq_true hm' ▸ hm) (by simp)
  refine ⟨h.config, h.thisClientId, h.endpoint, h.queue, ?_, h.timeouts, h.accepted, h.uid, ?_,
    honce, h.queueCas, h.inflightCas⟩
  · intro key
    have hget := h.inflights key
    rw [get_putInflight, PlainMap.get_put]
    split_ifs
    · rfl
    · exact hget
  · intro key m' hget
    rw [PlainMap.get_put] at hget
    split_ifs at hget with heq
    · obtain rfl := Option.some.inj hget
      exact hid.trans heq.symm
    · exact h.keyed key m' hget

/-- A stored message is changed, but for its packet id. -/
lemma update (hget : s.inflights.get key = some m) {f : MqttMessage → MqttMessage}
    (huid : (f (s.heap m)).uid = (s.heap m).uid)
    (hid : (f (s.heap m)).messageId = (s.heap m).messageId) :
    Mirrors (s.modify m f) (w.putInflight key (f (s.heap m))) queueCas inflightCas := by
  have hkeyed := h.keyed key m hget
  have hvalues : 0 < (PlainMap.values s.inflights).count m :=
    count_pos_iff.2 ((PlainMap.mem_values_iff _ _).2 ⟨key, hget⟩)
  have hqueue : m ∉ s.queue.items := by
    have honce := (h.once m).trans (Bool.toNat_le _)
    simp only [owned] at honce
    exact count_eq_zero.1 (by omega)
  have hother : ∀ key' m', s.inflights.get key' = some m' → key' ≠ key → m' ≠ m := by
    rintro key' m' hget' hne rfl
    exact hne ((h.keyed key' m' hget').symm.trans hkeyed)
  refine ⟨h.config, h.thisClientId, h.endpoint, ?_, ?_, h.timeouts, h.accepted, ?_, ?_, h.once,
    h.queueCas, h.inflightCas⟩
  · refine h.queue.trans (congrArg (BoundedQueue.mk s.queue.capacity)
      (map_congr_left fun m' hm' => ?_))
    exact (modify_of_ne (ne_of_mem_of_not_mem hm' hqueue)).symm
  · intro key'
    rw [get_putInflight]
    split_ifs with heq
    · subst heq
      rw [show (s.modify m f).inflights = s.inflights from rfl, hget, Option.map_some]
      exact congrArg some modify_self.symm
    · refine (h.inflights key').trans (Option.map_congr fun m' hget' => ?_)
      exact (modify_of_ne (hother key' m' hget' heq)).symm
  · intro m' hm'
    rw [modify_uid huid]
    exact h.uid m' hm'
  · intro key' m' hget'
    have hkey := h.keyed key' m' hget'
    by_cases heq : m' = m
    · rw [heq, modify_self, hid, ← heq, hkey]
    · rw [modify_of_ne heq, hkey]

lemma remove (key : ℤ) :
    Mirrors { s with inflights := s.inflights.remove key } (w.removeInflight key) queueCas
      inflightCas := by
  have honce := h.once_exec (t := .removeExpired key) (by simp [holds]) (by simp)
  refine ⟨h.config, h.thisClientId, h.endpoint, h.queue, ?_, h.timeouts, h.accepted, h.uid, ?_,
    honce, h.queueCas, h.inflightCas⟩
  · intro key'
    have hget := h.inflights key'
    rw [get_removeInflight, PlainMap.get_remove]
    split_ifs
    · rfl
    · exact hget
  · intro key' m hget
    exact h.keyed key' m (PlainMap.get_of_get_remove _ hget)

lemma enqueue (hm : InHand s m) :
    Mirrors { s with queue := (BoundedConcurrentLinkedQueue.addExt s.queue m).2 }
      (w.enqueue (s.heap m)).2 queueCas inflightCas := by
  have honce := h.once_exec (t := .addExt m false) (fun m' hm' => of_decide_eq_true hm' ▸ hm)
    (by simp)
  have hadd : w.addExt (s.heap m) = ((BoundedConcurrentLinkedQueue.addExt s.queue m).1,
      (BoundedConcurrentLinkedQueue.addExt s.queue m).2.map s.heap) := by
    show BoundedConcurrentLinkedQueue.addExt w.queue _ = _
    rw [h.queue, BoundedConcurrentLinkedQueue.addExt_map]
  simp only [SessionWrapper.enqueue]
  rw [hadd, if_pos (BoundedConcurrentLinkedQueue.addExt_nonneg s.queue m)]
  exact ⟨h.config, h.thisClientId, h.endpoint, rfl, h.inflights, h.timeouts, h.accepted, h.uid,
    h.keyed, honce, h.queueCas, h.inflightCas⟩

lemma poll {rest : List ℕ} (hitems : s.queue.items = m :: rest) :
    Mirrors { s with queue := { s.queue with items := rest } } (w.setQueue (rest.map s.heap))
      queueCas inflightCas ∧
    InHand { s with queue := { s.queue with items := rest } } m := by
  have hcount : ∀ m', owned s m' =
      owned { s with queue := { s.queue with items := rest } } m' + (decide (m = m')).toNat := by
    intro m'
    unfold owned
    rw [hitems, count_cons_eq]
    dsimp only
    omega
  have honce := h.once m
  rw [hcount, decide_eq_true rfl, Bool.toNat_true] at honce
  refine ⟨⟨h.config, h.thisClientId, h.endpoint, ?_, h.inflights, h.timeouts, h.accepted, h.uid,
    h.keyed, fun m' => ?_, h.queueCas, h.inflightCas⟩, ?_, ?_⟩
  · exact congrArg (fun q => BoundedQueue.mk q.capacity (rest.map s.heap)) h.queue
  · have honce' := h.once m'
    rw [hcount] at honce'
    exact (Nat.le_add_right _ _).trans honce'
  · by_contra hlt
    rw [decide_eq_false hlt] at honce
    exact absurd honce (by simp)
  · have hle := honce.trans (Bool.toNat_le _)
    omega

end Mirrors

/-! ### The parts of a call -/

/-- The call, alone, gets from `t` to `t'`, and then the session mirrors the wrapper. -/
def Does (s : State) (t : Access) (w : SessionWrapper .transient) (queueCas inflightCas : Bool)
    (t' : Access) : Prop :=
  ∃ s', Pool.Leads exec (s, t) (s', t') ∧ Mirrors s' w queueCas inflightCas

section Does

variable {s₁ : State} {t t₁ t' : Access} {w' : SessionWrapper .transient}
variable {queueCas' inflightCas' : Bool}

lemma Mirrors.does (h : Mirrors s w queueCas inflightCas) (t : Access) :
    Does s t w queueCas inflightCas t :=
  ⟨s, Pool.Leads.refl _, h⟩

lemma Does.step (heq : exec s t = (s₁, t₁)) (h : Does s₁ t₁ w queueCas inflightCas t') :
    Does s t w queueCas inflightCas t' := by
  obtain ⟨s', hleads, hs'⟩ := h
  exact ⟨s', Pool.Leads.head (heq ▸ hleads), hs'⟩

lemma Does.andThen (h : Does s t w queueCas inflightCas t₁)
    (hrest : ∀ s₁, Mirrors s₁ w queueCas inflightCas → Does s₁ t₁ w' queueCas' inflightCas' t') :
    Does s t w' queueCas' inflightCas' t' := by
  obtain ⟨s₁, hleads, hs₁⟩ := h
  obtain ⟨s', hleads', hs'⟩ := hrest s₁ hs₁
  exact ⟨s', hleads.trans hleads', hs'⟩

end Does

lemma Mirrors.sent (h : Mirrors s w queueCas inflightCas) (hm : m < s.created)
    (hc : s.endpoint.isConnected = true) (everPublished : Bool) (event : Event) :
    Mirrors (s.sent m everPublished event) (w.publish (s.heap m) everPublished).2 queueCas
      inflightCas := by
  rw [SessionWrapper.publish_of_connected w _ _ (h.endpoint ▸ hc), h.uid m hm, h.endpoint]
  exact (h.setEndpoint (s.sent m everPublished event).endpoint).setLog (s.log ++ [event])

/-- From the PUBLISH of a stored message to the release of the flag. -/
lemma does_publish (h : Mirrors s w queueCas true) (hm : m < s.created) (caller : Caller)
    (before : ℕ) {sent : ℤ × SessionWrapper .transient}
    (hsent : sent = w.publish (s.heap m) caller.everPublished) :
    Does s (.publishIsConnected caller m messageId before) sent.2 queueCas false
      (afterRelease sent.1 caller) := by
  subst hsent
  by_cases hc : s.endpoint.isConnected = true
  · refine Does.step (congrArg (Prod.mk s) (if_pos hc)) ?_
    have hmirrors := (h.sent hm hc caller.everPublished
      (.published m (s.heap m).qos (nextId s.endpoint.lastMessageId))).setInflightCas false
    rw [SessionWrapper.publish_of_connected w _ _ (h.endpoint ▸ hc)] at hmirrors ⊢
    by_cases hq : (s.heap m).qos = .atMostOnce
    · refine Does.step ((exec_publish s caller m messageId before).trans
        ((if_pos hc).trans (congrArg (Prod.mk _) (if_pos hq)))) (Does.step rfl ?_)
      rw [if_pos hq]
      exact hmirrors.does _
    · refine Does.step ((exec_publish s caller m messageId before).trans
        ((if_pos hc).trans (congrArg (Prod.mk _) (if_neg hq)))) (Does.step rfl (Does.step rfl ?_))
      rw [if_neg hq, h.endpoint]
      rw [h.endpoint] at hmirrors
      exact hmirrors.does _
  · refine Does.step (congrArg (Prod.mk s) (if_neg hc)) (Does.step rfl ?_)
    rw [SessionWrapper.publish_of_not_connected w _ _ (h.endpoint ▸ Bool.not_eq_true _ ▸ hc)]
    exact (h.setInflightCas false).does _

/-- A message in the hand of the call is stored and sent. -/
lemma does_put (h : Mirrors s w queueCas true) (hm : InHand s m)
    (hid : (s.heap m).messageId = messageId) (caller : Caller) (before : ℕ)
    {sent : ℤ × SessionWrapper .transient}
    (hsent : sent = ((w.putInflight messageId (s.heap m)).saveInflightTimeout messageId).publish
      (s.heap m) caller.everPublished) :
    Does s (.put caller m messageId before) sent.2 queueCas false (afterRelease sent.1 caller) := by
  have hstored := ((h.put hm hid).setLog (s.log ++ [.stored m messageId])).saveTimeout messageId
  refine Does.step rfl (Does.step rfl ?_)
  exact does_publish hstored hm.1 caller before hsent

/-- There is an id for the next PUBLISH. -/
lemma does_setMessageId (h : Mirrors s w queueCas inflightCas)
    (hid : 0 < IdUtil.nextMessageId w.endpoint) (caller : Caller) {w' : SessionWrapper .transient}
    {queueCas' inflightCas' : Bool} {t' : Access}
    (hrest : Does s (.setMessageId caller m (IdUtil.nextMessageId w.endpoint) s.directs) w'
      queueCas' inflightCas' t') :
    Does s (.nextIsConnected caller m) w' queueCas' inflightCas' t' := by
  have hc : s.endpoint.isConnected = true := by
    by_contra hc
    rw [nextMessageId_of_not_connected (h.endpoint ▸ Bool.not_eq_true _ ▸ hc)] at hid
    exact absurd hid (by decide)
  rw [h.nextMessageId_eq hc] at hid hrest
  exact Does.step (congrArg (Prod.mk s) (if_pos hc))
    (Does.step (congrArg (Prod.mk s) (if_pos hid)) hrest)

/-- There is none. -/
lemma does_noMessageId (h : Mirrors s w queueCas inflightCas)
    (hid : ¬0 < IdUtil.nextMessageId w.endpoint) (caller : Caller) {w' : SessionWrapper .transient}
    {queueCas' inflightCas' : Bool} {t' : Access}
    (hrest : Does s (noMessageId m caller) w' queueCas' inflightCas' t') :
    Does s (.nextIsConnected caller m) w' queueCas' inflightCas' t' := by
  by_cases hc : s.endpoint.isConnected = true
  · rw [h.nextMessageId_eq hc] at hid
    exact Does.step (congrArg (Prod.mk s) (if_pos hc))
      (Does.step (congrArg (Prod.mk s) (if_neg hid)) hrest)
  · exact Does.step (congrArg (Prod.mk s) (if_neg hc)) hrest

/-- A message gets the id, is stored and sent. -/
lemma does_keep (h : Mirrors s w queueCas true) (hm : InHand s m) (caller : Caller)
    (hcaller : caller.everPublished = false) (before : ℕ) {message : MqttMessage}
    (hmessage : message = { s.heap m with messageId := messageId })
    {sent : ℤ × SessionWrapper .transient}
    (hsent : sent = ((w.putInflight messageId message).saveInflightTimeout messageId).publish
      message false) :
    Does s (.setMessageId caller m messageId before) sent.2 queueCas false
      (afterRelease sent.1 caller) := by
  have hheap : (s.modify m fun message => { message with messageId := messageId }).heap m =
    message := modify_self.trans hmessage.symm
  have hmod := h.modify (f := fun message => { message with messageId := messageId }) hm rfl
  have hnext : afterSetMessageId m messageId before caller = .put caller m messageId before := by
    cases caller with
    | inflight | dequeue => rfl
    | retryInflight old => cases hcaller
  refine Does.step (congrArg (Prod.mk _) hnext) ?_
  refine does_put hmod hm ?_ caller before ?_
  · rw [hheap, hmessage]
  · rw [hheap, hcaller, hsent]

/-! ### `handleMessage` -/

lemma enqueue_fst (w : SessionWrapper .transient) (message : MqttMessage) :
    (w.enqueue message).1 = MsgConst.ENQUEUE_SUCCEEDED := by
  simp only [SessionWrapper.enqueue]
  rw [if_pos]
  exact BoundedConcurrentLinkedQueue.addExt_nonneg w.queue message

lemma does_addExt {locked : Bool} (h : Mirrors s w queueCas locked) (hm : InHand s m) :
    Does s (.addExt m locked) (w.enqueue (s.heap m)).2 queueCas false
      (afterHandle (w.enqueue (s.heap m)).1) := by
  have hadded := BoundedConcurrentLinkedQueue.addExt_nonneg s.queue m
  rw [enqueue_fst]
  cases locked with
  | false =>
      exact Does.step (congrArg (fun r => Prod.mk _ (afterHandle r)) (if_pos hadded))
        ((h.enqueue hm).does _)
  | true =>
      exact Does.step (congrArg (fun r => Prod.mk _ (Access.release .inflight r)) (if_pos hadded))
        (Does.step rfl (((h.enqueue hm).setInflightCas false).does _))

lemma does_inflight (h : Mirrors s w queueCas false) (hm : InHand s m) :
    Does s (.inflightIsEmpty m false) (w.inflight (s.heap m)).2 queueCas false
      (afterHandle (w.inflight (s.heap m)).1) := by
  have hempty := h.isEmpty_eq
  have hfull := h.isInflightFull_eq
  rw [SessionWrapper.inflight]
  by_cases he : s.queue.items.isEmpty = true
  case neg =>
    rw [if_pos (by simp [hempty, he])]
    exact Does.step (congrArg (Prod.mk s) (if_neg he)) (does_addExt h hm)
  refine Does.step (congrArg (Prod.mk s) (if_pos he)) ?_
  by_cases hf : s.isInflightFull = true
  case pos =>
    rw [if_pos (by simp [hfull, hf])]
    exact Does.step (congrArg (Prod.mk s) (if_pos hf)) (does_addExt h hm)
  rw [if_neg (by simp [hempty, he, hfull, hf])]
  refine Does.step (congrArg (Prod.mk s) ((if_neg hf).trans (if_neg Bool.false_ne_true))) ?_
  refine Does.step (if_neg (h.inflightCas ▸ Bool.false_ne_true)) ?_
  -- the same checks again, now with the flag
  have hlocked := h.setInflightCas true
  refine Does.step (congrArg (Prod.mk _) (if_pos he)) ?_
  refine Does.step (congrArg (Prod.mk _) ((if_neg hf).trans (if_pos rfl))) ?_
  dsimp only
  split_ifs with hid
  · exact does_setMessageId hlocked hid .inflight
      (does_keep hlocked hm .inflight rfl _ rfl rfl)
  · exact does_noMessageId hlocked hid .inflight (does_addExt hlocked hm)

/-- What `publish` returns for a message of QoS 0 ends the call. -/
lemma afterHandle_publish {message : MqttMessage} (hq : message.qos = .atMostOnce) :
    afterHandle (w.publish message false).1 = .done := by
  cases hc : w.endpoint.isConnected with
  | true =>
      rw [SessionWrapper.publish_of_connected w message false hc, if_pos hq]
      rfl
  | false =>
      rw [SessionWrapper.publish_of_not_connected w message false hc]
      rfl

lemma does_sendIsConnected (h : Mirrors s w queueCas inflightCas) (hm : InHand s m) :
    Does s (.sendIsConnected m) (w.publish (s.heap m) false).2 queueCas inflightCas .done := by
  by_cases hc : s.endpoint.isConnected = true
  · refine Does.step (congrArg (Prod.mk s) (if_pos hc)) ?_
    refine Does.step ((exec_sendPublish s m).trans (if_pos hc)) ?_
    exact (h.sent hm.1 hc false _).does _
  · refine Does.step (congrArg (Prod.mk s) (if_neg hc)) ?_
    rw [SessionWrapper.publish_of_not_connected w _ _ (h.endpoint ▸ Bool.not_eq_true _ ▸ hc)]
    exact h.does _

lemma does_handleMessage (h : Mirrors s w queueCas false) (hm : InHand s m) :
    Does s (handleMessage s.config m (s.heap m).qos) (w.handleMessage (s.heap m)).2 queueCas false
      (afterHandle (w.handleMessage (s.heap m)).1) := by
  have hempty := h.isEmpty_eq
  simp only [handleMessage, SessionWrapper.handleMessage]
  by_cases hq : (s.heap m).qos = .atMostOnce
  case neg =>
    rw [if_neg hq, if_neg hq]
    exact does_inflight h hm
  rw [if_pos hq, if_pos hq, h.config]
  by_cases hstore : s.config.sessionQueueStoreQos0 = true
  case neg =>
    rw [if_neg hstore, if_neg (by simp [hstore]), afterHandle_publish hq]
    exact does_sendIsConnected h hm
  rw [if_pos hstore]
  by_cases he : s.queue.items.isEmpty = true
  · rw [if_neg (by simp [hempty, he]), afterHandle_publish hq]
    exact Does.step (congrArg (Prod.mk s) (if_pos he)) (does_sendIsConnected h hm)
  · rw [if_pos (by simp [hstore, hempty, he])]
    exact Does.step (congrArg (Prod.mk s) (if_neg he)) (does_addExt h hm)

/-! ### `dequeue` -/

/-- The `break` of the loop. -/
lemma does_stop {locked : Bool} (h : Mirrors s w true locked) :
    Does s (stop locked) w false false .done := by
  cases locked with
  | false => exact Does.step rfl ((h.setQueueCas false).does _)
  | true =>
      exact Does.step rfl (Does.step rfl (((h.setInflightCas false).setQueueCas false).does _))

/-- How a round of the loop ends: it goes round, or the method returns. -/
def Round (s : State) (t : Access) (r : Bool × SessionWrapper .transient) : Prop :=
  if r.1 then Does s t r.2 true false (.dequeueIsConnected false)
  else Does s t r.2 false false .done

lemma Round.step {s₁ : State} {t t₁ : Access} {r : Bool × SessionWrapper .transient}
    (heq : exec s t = (s₁, t₁)) (h : Round s₁ t₁ r) : Round s t r := by
  simp only [Round] at h ⊢
  split_ifs at h ⊢
  · exact h.step heq
  · exact h.step heq

/-- The rest of a round after the poll. -/
lemma round_polled (h : Mirrors s w true true) (hm : InHand s m)
    (hc : s.endpoint.isConnected = true) :
    Round s (if (s.heap m).qos = .atMostOnce then .polledIsConnected m
      else .nextIsConnected .dequeue m) (w.sendPolled (s.heap m)) := by
  have hnext : ∀ {s₁ : State} {w₁ : SessionWrapper .transient}, Mirrors s₁ w₁ true true →
      InHand s₁ m → s₁.heap m = s.heap m → Round s₁ (.nextIsConnected .dequeue m)
        (if IdUtil.nextMessageId w₁.endpoint > 0 then
          (true, (((w₁.putInflight (IdUtil.nextMessageId w₁.endpoint)
            { s.heap m with messageId := IdUtil.nextMessageId w₁.endpoint }).saveInflightTimeout
              (IdUtil.nextMessageId w₁.endpoint)).publish
            { s.heap m with messageId := IdUtil.nextMessageId w₁.endpoint } false).2)
        else (false, w₁)) := by
    intro s₁ w₁ h₁ hm₁ hheap
    split_ifs with hid
    · exact does_setMessageId h₁ hid .dequeue
        (does_keep h₁ hm₁ .dequeue rfl _ (by rw [hheap]) rfl)
    · exact does_noMessageId h₁ hid .dequeue (does_stop h₁)
  rw [SessionWrapper.sendPolled]
  dsimp only
  by_cases hq : (s.heap m).qos = .atMostOnce
  · have hzero : (w.publish (s.heap m) false).1 = 0 := by
      rw [SessionWrapper.publish_of_connected w _ _ (h.endpoint ▸ hc), if_pos hq]
    rw [if_pos hq, if_neg (by simp [hzero]), if_pos hq]
    refine Round.step (congrArg (Prod.mk s) (if_pos hc)) ?_
    refine Round.step ((exec_polledPublish s m).trans (if_pos hc)) ?_
    exact hnext (h.sent hm.1 hc false _) hm rfl
  · rw [if_neg hq, if_neg fun hpub => hq hpub.1, if_neg hq]
    exact hnext h hm rfl

lemma exec_poll {rest : List ℕ} (hitems : s.queue.items = m :: rest) :
    exec s .poll = ({ s with queue := { s.queue with items := rest } },
      if (s.heap m).qos = .atMostOnce then .polledIsConnected m
      else .nextIsConnected .dequeue m) := by
  simp only [exec, hitems]

/-- The loop of `dequeue`. -/
lemma does_dequeueFrom {items : List MqttMessage} (h : Mirrors s w true false)
    (hitems : w.queue.items = items) :
    Does s (.dequeueIsConnected false) (w.dequeueFrom items) false false .done := by
  induction items generalizing s w with
  | nil =>
      have he : s.queue.items.isEmpty = true := by
        rw [← h.isEmpty_eq, hitems]
        rfl
      have hw : w.setQueue [] = w := hitems ▸ rfl
      rw [SessionWrapper.dequeueFrom, hw]
      by_cases hc : s.endpoint.isConnected = true
      · exact Does.step (congrArg (Prod.mk s) (if_pos hc))
          (Does.step (congrArg (Prod.mk s) (if_pos he)) (does_stop h))
      · exact Does.step (congrArg (Prod.mk s) (if_neg hc)) (does_stop h)
  | cons message rest ih =>
      have hw : w.setQueue (message :: rest) = w := hitems ▸ rfl
      have he : ¬s.queue.items.isEmpty = true := by
        rw [← h.isEmpty_eq, hitems]
        exact Bool.false_ne_true
      have hfull := h.isInflightFull_eq
      simp only [SessionWrapper.dequeueFrom]
      by_cases hc : s.endpoint.isConnected = true
      case neg =>
        rw [if_pos (by simp [h.endpoint, hc]), hw]
        exact Does.step (congrArg (Prod.mk s) (if_neg hc)) (does_stop h)
      refine Does.step (congrArg (Prod.mk s) (if_pos hc)) ?_
      refine Does.step (congrArg (Prod.mk s) (if_neg he)) ?_
      by_cases hf : s.isInflightFull = true
      case pos =>
        rw [if_pos (by simp [hfull, hf]), hw]
        exact Does.step (congrArg (Prod.mk s) (if_pos hf)) (does_stop h)
      rw [if_neg (by simp [h.endpoint, hc, hfull, hf])]
      refine Does.step (congrArg (Prod.mk s) ((if_neg hf).trans (if_neg Bool.false_ne_true))) ?_
      refine Does.step (if_neg (h.inflightCas ▸ Bool.false_ne_true)) ?_
      have hlocked := h.setInflightCas true
      refine Does.step (congrArg (Prod.mk _) (if_pos hc)) ?_
      refine Does.step (congrArg (Prod.mk _) (if_neg he)) ?_
      refine Does.step (congrArg (Prod.mk _) ((if_neg hf).trans (if_pos rfl))) ?_
      cases hs : s.queue.items with
      | nil => simp [hs] at he
      | cons m items =>
          have hmap : message :: rest = (m :: items).map s.heap := by
            rw [← hitems, h.queue, ← hs]
            rfl
          obtain ⟨rfl, rfl⟩ := List.cons.inj hmap
          obtain ⟨hpoll, hm⟩ := hlocked.poll hs
          have hround := round_polled hpoll hm hc
          have hqueue := SessionWrapper.sendPolled_queue (w.setQueue (items.map s.heap)) (s.heap m)
          refine Does.step (exec_poll hs) ?_
          dsimp only at hround
          cases hr : (w.setQueue (items.map s.heap)).sendPolled (s.heap m) with
          | mk more w' =>
              rw [hr] at hround hqueue
              cases more with
              | false => exact hround
              | true =>
                  exact Does.andThen hround fun s' h' => ih h' (congrArg BoundedQueue.items hqueue)

lemma does_dequeue (h : Mirrors s w false false) :
    Does s .takeQueueCas w.dequeue false false .done :=
  Does.step (if_neg (h.queueCas ▸ Bool.false_ne_true)) (does_dequeueFrom (h.setQueueCas true) rfl)

/-! ### The acknowledgements and `retry` -/

lemma does_receiveFinal (h : Mirrors s w false false) (messageId : ℤ) :
    Does s (.remove messageId) (w.receiveFinal messageId) false false .done := by
  have hremoved := (((h.setLedger
    (l := w.ledger.acknowledge (w.inflights.get messageId)) rfl).remove messageId).setLog
    (s.log ++ (s.inflights.get messageId).toList.map .acknowledged)).deleteTimeout messageId
  exact Does.step rfl (Does.step rfl (does_dequeue hremoved))

lemma does_receivePubrec (h : Mirrors s w queueCas inflightCas) (messageId : ℤ) :
    Does s (.pubrecGet messageId) (w.receivePubrec messageId) queueCas inflightCas .done := by
  simp only [SessionWrapper.receivePubrec]
  rw [h.inflights]
  cases hget : s.inflights.get messageId with
  | none =>
      have hstep : exec s (.pubrecGet messageId) = (s, .done) := by simp only [exec, hget]
      exact Does.step hstep (h.does _)
  | some m =>
      have hstep : exec s (.pubrecGet messageId) = (s, .setStatus m) := by simp only [exec, hget]
      have hupdate := h.update hget (f := fun message =>
        { message with status := MsgConst.PUBREC_STATUS }) rfl rfl
      exact Does.step hstep (Does.step rfl (hupdate.does _))

lemma Mirrors.publishRelease (h : Mirrors s w queueCas inflightCas) (messageId : ℤ) :
    Mirrors { s with endpoint := (s.endpoint.publishRelease messageId).getD s.endpoint }
      (w.publishRelease messageId).2 queueCas inflightCas := by
  simp only [SessionWrapper.publishRelease]
  rw [h.endpoint]
  cases s.endpoint.publishRelease messageId with
  | none => exact h
  | some endpoint => exact h.setEndpoint endpoint

/-- A message that is taken out from under its packet id is in the hand of the call. -/
lemma inHand_remove (h : Mirrors s w queueCas inflightCas) (hget : s.inflights.get key = some m) :
    InHand { s with inflights := s.inflights.remove key } m := by
  have hone : owned { s with inflights := s.inflights.remove key } m + 1 = owned s m :=
    owned_remove hget
  have honce := h.once m
  constructor
  · by_contra hlt
    rw [decide_eq_false hlt] at honce
    exact absurd (honce.trans_lt (hone ▸ Nat.succ_pos _)) (Nat.lt_irrefl _)
  · have hle := honce.trans (Bool.toNat_le _)
    omega

lemma modify_modify (s : State) (m : ℕ) (f g : MqttMessage → MqttMessage) :
    (s.modify m f).modify m g = s.modify m fun message => g (f message) := by
  simp only [State.modify]
  simp only [Function.update_self, Function.update_idem]

/-- A retry takes the message out from under its old id, and sends it under the next one. -/
lemma does_resend (h : Mirrors s w queueCas true) {old : ℤ} (hget : s.inflights.get old = some m)
    (before : ℕ) {message : MqttMessage}
    (hmessage : message = { s.heap m with
      retry := (s.heap m).retry + 1, messageId := messageId }) :
    Does s (.setMessageId (.retryInflight old) m messageId before)
      ((((w.removeInflight old).putInflight messageId message).saveInflightTimeout
        messageId).publish message true).2 queueCas false .done := by
  have hm := inHand_remove h hget
  have hmod := (h.remove old).modify (f := fun message => { message with
    retry := message.retry + 1, messageId := messageId }) hm rfl
  refine Does.step rfl (Does.step rfl (Does.step rfl ?_))
  rw [modify_modify]
  have hheap := modify_self (s := { s with inflights := s.inflights.remove old }) (m := m)
    (f := fun message => { message with retry := message.retry + 1, messageId := messageId })
  refine does_put hmod hm ?_ (.retryInflight old) before ?_
  · rw [hheap]
  · rw [hheap, hmessage]
    rfl

lemma does_retryInflight (h : Mirrors s w queueCas false) (hget : s.inflights.get key = some m) :
    Does s (.getMessageId m) (w.retryInflight (s.heap m)).2 queueCas false .done := by
  obtain rfl := h.keyed key m hget
  refine Does.step rfl ?_
  rw [SessionWrapper.retryInflight]
  dsimp only
  by_cases hreceived : (s.heap m).qos = .exactlyOnce ∧ (s.heap m).status = MsgConst.PUBREC_STATUS
  · have hupdate := h.update hget (f := fun message =>
      { message with retry := message.retry + 1 }) rfl rfl
    refine Does.step (congrArg (Prod.mk s) (if_pos hreceived)) ?_
    refine Does.step rfl (Does.step rfl (Does.step rfl ?_))
    rw [if_pos hreceived]
    exact ((hupdate.saveTimeout _).publishRelease _).does _
  · have hlocked := h.setInflightCas true
    refine Does.step (congrArg (Prod.mk s) (if_neg hreceived)) ?_
    refine Does.step (if_neg (h.inflightCas ▸ Bool.false_ne_true)) ?_
    rw [if_neg hreceived]
    by_cases hid : 0 < IdUtil.nextMessageId w.endpoint
    · rw [if_pos hid]
      exact does_setMessageId hlocked hid _ (does_resend hlocked hget _ rfl)
    · rw [if_neg hid, if_neg SessionKind.noConfusion]
      exact does_noMessageId hlocked hid _ (Does.step rfl ((hlocked.setInflightCas false).does _))

lemma does_retry (h : Mirrors s w false false) (messageId : ℤ) :
    Does s (.retryGet messageId) (w.retry messageId) false false .done := by
  simp only [SessionWrapper.retry]
  rw [h.inflights]
  cases hget : s.inflights.get messageId with
  | none =>
      have hstep : exec s (.retryGet messageId) = (s, .done) := by simp only [exec, hget]
      exact Does.step hstep (h.does _)
  | some m =>
      have hstep : exec s (.retryGet messageId) = (s, .getRetry m messageId) := by
        simp only [exec, hget]
      refine Does.step hstep ?_
      dsimp only [Option.map_some]
      have hconfig := h.config
      by_cases hmax : (s.heap m).retry ≥ s.config.sessionInflightMaxRetries
      · rw [if_pos (by rwa [hconfig])]
        have hdiscarded := h.setLedger (l := w.ledger.discard [s.heap m] 1) rfl
        refine Does.step (congrArg (Prod.mk s) (if_pos hmax)) (Does.step rfl ?_)
        exact does_dequeue (hdiscarded.remove messageId)
      · rw [if_neg (by rwa [hconfig])]
        exact Does.step (congrArg (Prod.mk s) (if_neg hmax)) (does_retryInflight h hget)

/-! ### The calls -/

/-- What a call does to a wrapper. -/
def Call.perform : Call → SessionWrapper .transient → SessionWrapper .transient
  | .publishMessage message qos, w => w.publishMessage message qos
  | .publishCachedMessage, w => w.publishCachedMessage
  | .receivePuback messageId, w => w.receivePuback messageId
  | .receivePubrec messageId, w => w.receivePubrec messageId
  | .receivePubcomp messageId, w => w.receivePubcomp messageId
  | .retry messageId, w => w.retry messageId
  | .accept, w => { w with endpoint := w.endpoint.accept.getD w.endpoint }
  | .close, w => { w with endpoint := w.endpoint.close }

lemma does_publishMessage (h : Mirrors s w false false) (message : MqttMessage) (qos : MqttQoS) :
    Does (start (.publishMessage message qos) s).1 (start (.publishMessage message qos) s).2
      (w.publishMessage message qos) false false .done := by
  obtain ⟨hcreate, hm, hheap⟩ := h.create message qos
  have hhandle := does_handleMessage hcreate hm
  rw [hheap] at hhandle
  unfold SessionWrapper.publishMessage
  refine hhandle.andThen fun s' hs' => ?_
  unfold afterHandle
  dsimp only
  split_ifs
  · exact does_dequeue hs'
  · exact hs'.does _

lemma does_call (h : Mirrors s w false false) (call : Call) :
    Does (start call s).1 (start call s).2 (call.perform w) false false .done := by
  cases call with
  | publishMessage message qos => exact does_publishMessage h message qos
  | publishCachedMessage => exact does_dequeue h
  | receivePuback messageId | receivePubcomp messageId => exact does_receiveFinal h messageId
  | receivePubrec messageId => exact does_receivePubrec h messageId
  | retry messageId => exact does_retry h messageId
  | accept =>
      dsimp only [Call.perform]
      rw [h.endpoint]
      exact (h.setEndpoint _).does _
  | close =>
      dsimp only [Call.perform]
      rw [h.endpoint]
      exact (h.setEndpoint _).does _

/-- A call that is begun while no other one runs can run to its end, and does then what the method
does. -/
lemma exists_run_call {r : Run} (h : Mirrors r.shared w false false) (call : Call) :
    ∃ n s', run step r (.call call :: replicate n (.run r.tasks.length)) =
        some ⟨s', r.tasks ++ [.done]⟩ ∧ Mirrors s' (call.perform w) false false := by
  obtain ⟨s', hleads, hs'⟩ := does_call h call
  obtain ⟨n, hn⟩ := hleads.exists_run r.tasks
  exact ⟨n, s', hn, hs'⟩

lemma mirrors_init (config : Config) (endpoint : MqttEndpoint) :
    Mirrors (init config endpoint).shared (TransientSessionWrapper.new config endpoint)
      false false where
  config := rfl
  thisClientId := rfl
  endpoint := rfl
  queue := rfl
  inflights _ := rfl
  timeouts := rfl
  accepted := rfl
  uid _ hm := absurd hm (Nat.not_lt_zero _)
  keyed _ _ hget := nomatch hget
  once _ := Nat.zero_le _
  queueCas := rfl
  inflightCas := rfl

/-- **Calls that are made one after the other.**  From a session in which no call runs there is an
interleaving that begins the calls in this order, in which all of them return, and which leaves the
session as the methods leave the wrapper. -/
theorem exists_run_calls {r : Run} (h : Mirrors r.shared w false false)
    (hdone : ∀ t ∈ r.tasks, t = .done) (calls : List Call) :
    ∃ moves r', run step r moves = some r' ∧ moves.filterMap Move.call? = calls ∧
      (∀ t ∈ r'.tasks, t = .done) ∧
      Mirrors r'.shared (calls.foldl (fun w call => call.perform w) w) false false := by
  induction calls generalizing r w with
  | nil => exact ⟨[], r, rfl, rfl, hdone, h⟩
  | cons call calls ih =>
      obtain ⟨n, s', hrun, hs'⟩ := exists_run_call h call
      have hdone' : ∀ t ∈ r.tasks ++ [.done], t = .done := by
        simpa [or_imp, forall_and] using hdone
      obtain ⟨moves, r', hrun', hcalls, hr', hmirrors⟩ := ih (r := ⟨s', _⟩) hs' hdone'
      refine ⟨(.call call :: replicate n (.run r.tasks.length)) ++ moves, r', ?_, ?_, hr',
        hmirrors⟩
      · rw [run_append, hrun]
        exact hrun'
      · have hcall : (Move.call call :: replicate n (Move.run r.tasks.length)).filterMap
            Move.call? = [call] := by simp [filterMap_replicate, Move.call?]
        rw [filterMap_append, hcall, hcalls]
        rfl

/-- So the methods of a new wrapper are runs of a new session. -/
theorem exists_run_init (config : Config) (endpoint : MqttEndpoint) (calls : List Call) :
    ∃ moves r, run step (init config endpoint) moves = some r ∧
      moves.filterMap Move.call? = calls ∧ (∀ t ∈ r.tasks, t = .done) ∧
      Mirrors r.shared (calls.foldl (fun w call => call.perform w)
        (TransientSessionWrapper.new config endpoint)) false false :=
  exists_run_calls (mirrors_init config endpoint) (fun _ ht => absurd ht not_mem_nil) calls

end Calls

end Stuart
