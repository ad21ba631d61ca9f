/-
Messages of QoS 2 that a client publishes.

A PUBLISH of QoS 2 is kept until its PUBREL.  A transient session keeps it in an expiring map, a
persistent one in a stored map that counts its keys in a field of its own; both replace what is
kept under the packet id, and both refuse a new packet id when they are full.  The log says of each
packet that came whether it was accepted or what it released.  What is kept can be read off from it
(`Inv`), so that the two kinds of session write the same log.
-/
import Stuart.Lib.Runs
import Stuart.Services.Lifecycle
import Stuart.Verticles.MqttVerticle
import Mathlib.Data.Set.Card

namespace Stuart

open List Lib

/-- The messages that a session keeps until their PUBREL. -/
def Awaits : SessionKind → Type
  | .transient => ExpiringMap ℤ MqttAwaitMessage
  | .persistent => BoundedIgniteMap ℤ MqttAwaitMessage

namespace Awaits

variable {kind : SessionKind}

def create (capacity : ℤ) : (kind : SessionKind) → Awaits kind
  | .transient => ExpiringMap.create (ExpiringMap.sizeOf capacity)
  | .persistent => BoundedIgniteMap.create capacity

def receiveQos2Message : {kind : SessionKind} → Awaits kind → MqttAwaitMessage →
    Bool × Awaits kind
  | .transient, m, awaitMessage => ExpiringMap.putExt m awaitMessage.messageId awaitMessage
  | .persistent, m, awaitMessage => BoundedIgniteMap.put m awaitMessage.messageId awaitMessage

def releaseQos2Message : {kind : SessionKind} → Awaits kind → ℤ →
    Option MqttAwaitMessage × Awaits kind
  | .transient, m, messageId => ExpiringMap.remove m messageId
  | .persistent, m, messageId => BoundedIgniteMap.remove m messageId

def get : {kind : SessionKind} → Awaits kind → ℤ → Option MqttAwaitMessage
  | .transient, m, messageId => ExpiringMap.get m messageId
  | .persistent, m, messageId => BoundedIgniteMap.get m messageId

def capacity : {kind : SessionKind} → Awaits kind → ℤ
  | .transient, m => ExpiringMap.maxSize m
  | .persistent, m => (BoundedIgniteMap.toBoundedIgniteMapUnsafe m).capacity

/-- The number of entries that decides whether there is room. -/
def size : {kind : SessionKind} → Awaits kind → ℕ
  | .transient, m => ExpiringMap.size m
  | .persistent, m => BoundedIgniteMap.size m

/-! ### What the methods do -/

@[simp] lemma get_create (capacity messageId : ℤ) :
    (create capacity kind).get messageId = none := by
  cases kind with
  | transient => exact PlainMap.get_empty messageId
  | persistent => exact PlainMap.get_empty messageId

lemma capacity_create {capacity : ℤ} (hpos : capacity > 0) :
    (create capacity kind).capacity = capacity := by
  cases kind with
  | transient => exact if_pos hpos
  | persistent => rfl

/-- The number of entries is the number of packet ids under which something is kept. -/
lemma encard_pending (m : Awaits kind) : {messageId | m.get messageId ≠ none}.encard = m.size := by
  have hkeys : ∃ keys : List ℤ, keys.Nodup ∧ (∀ messageId, messageId ∈ keys ↔
      m.get messageId ≠ none) ∧ keys.length = m.size := by
    cases kind with
    | transient =>
        obtain ⟨entries, hentries⟩ : ∃ entries, entries = ExpiringMap.entries m := ⟨_, rfl⟩
        refine ⟨entries.entries.keys, entries.nodupKeys, ?_, ?_⟩
        · intro messageId
          have hnone := entries.get_eq_none_iff messageId
          rw [hentries] at hnone ⊢
          exact ⟨fun hmem hget => hnone.1 hget hmem, fun hget => not_not.1 fun hmem =>
            hget (hnone.2 hmem)⟩
        · rw [hentries]
          simp [List.keys, size, ExpiringMap.size, PlainMap.values]
    | persistent =>
        obtain ⟨stored, size, hsize⟩ := m
        exact ⟨stored.set, stored.nodup, stored.mem_set, hsize.symm⟩
  obtain ⟨keys, hnodup, hmem, hlength⟩ := hkeys
  have hset : {messageId | m.get messageId ≠ none} = (keys.toFinset : Set ℤ) := by
    ext messageId
    simp [hmem]
  rw [hset, Set.encard_coe_eq_coe_finsetCard, toFinset_card_of_nodup hnodup, hlength]

/-- A message is kept if its packet id is pending or there is room. -/
lemma receive_of_room (m : Awaits kind) {a : MqttAwaitMessage} (hcap : 0 < m.capacity)
    (h : m.get a.messageId ≠ none ∨ (m.size : ℤ) < m.capacity) :
    (m.receiveQos2Message a).1 = true ∧ (m.receiveQos2Message a).2.capacity = m.capacity ∧
      ∀ messageId, (m.receiveQos2Message a).2.get messageId =
        if messageId = a.messageId then some a else m.get messageId := by
  cases kind with
  | transient =>
      have hput : m.receiveQos2Message a = _ := ExpiringMap.putExt_of_room m a h
      rw [hput]
      exact ⟨rfl, rfl, fun messageId => PlainMap.get_put _ _ _ _⟩
  | persistent => exact BoundedIgniteMap.put_of_room m a hcap h

lemma receive_of_full (m : Awaits kind) {a : MqttAwaitMessage}
    (h : ¬(m.get a.messageId ≠ none ∨ (m.size : ℤ) < m.capacity)) :
    m.receiveQos2Message a = (false, m) := by
  cases kind with
  | transient => exact ExpiringMap.putExt_of_full m a h
  | persistent => exact BoundedIgniteMap.put_of_full m a h

/-- What was kept under the packet id is handed out. -/
lemma release_eq (m : Awaits kind) (messageId : ℤ) :
    (m.releaseQos2Message messageId).1 = m.get messageId ∧
      (m.releaseQos2Message messageId).2.capacity = m.capacity ∧
      ∀ messageId', (m.releaseQos2Message messageId).2.get messageId' =
        if messageId' = messageId then none else m.get messageId' := by
  cases kind with
  | transient => exact ⟨rfl, rfl, fun _ => PlainMap.get_remove _ _ _⟩
  | persistent => exact BoundedIgniteMap.remove_eq m messageId

end Awaits

namespace InboundQos2

variable {kind : SessionKind}

/-- A packet that the client sends. -/
inductive Op where
  | publish (message : MqttPublishMessage)
  | pubrel (messageId : ℤ)

/-- What came of a packet. -/
inductive Event where
  | received (message : MqttPublishMessage) (accepted : Bool)
  | released (messageId : ℤ) (result : Option MqttAwaitMessage)

def Event.packet : Event → Op
  | .received message _ => .publish message
  | .released messageId _ => .pubrel messageId

/-- What a released message is: the client, the topic, the payload and the QoS. -/
structure Content where
  clientId : Str
  topic : Str
  payload : List UInt8
  qos : MqttQoS

def awaited (a : MqttAwaitMessage) : Content := ⟨a.clientId, a.topic, a.payload, a.qos⟩

def published (clientId : Str) (message : MqttPublishMessage) : Content :=
  ⟨clientId, message.topicName, message.payload, message.qosLevel⟩

/-- A session with the log of its calls. -/
structure Session (kind : SessionKind) where
  thisClientId : Str
  awaits : Awaits kind
  log : List Event

def Session.new (capacity : ℤ) (clientId : Str) (kind : SessionKind) : Session kind :=
  ⟨clientId, .create capacity kind, []⟩

/-- The method that handles the packet, with what came of it. -/
def Session.call (s : Session kind) : Op → Event × Awaits kind
  | .publish message =>
      let result := s.awaits.receiveQos2Message (message.convert2MqttAwaitMessage s.thisClientId)
      (.received message result.1, result.2)
  | .pubrel messageId =>
      let result := s.awaits.releaseQos2Message messageId
      (.released messageId result.1, result.2)

def Session.step (s : Session kind) (op : Op) : Session kind :=
  { s with awaits := (s.call op).2, log := s.log ++ [(s.call op).1] }

/-- The session after some packets. -/
def run (capacity : ℤ) (clientId : Str) (kind : SessionKind) (ops : List Op) : Session kind :=
  ops.foldl Session.step (Session.new capacity clientId kind)

/-! ### What a log says -/

/-- The event is an accepted PUBLISH or a PUBREL of the packet id. -/
def Event.Touches (messageId : ℤ) : Event → Prop
  | .received message accepted => accepted = true ∧ message.messageId = messageId
  | .released id _ => id = messageId

/-- The PUBLISH is the latest accepted one of its packet id since the last PUBREL of the id. -/
def Latest (log : List Event) (messageId : ℤ) (message : MqttPublishMessage) : Prop :=
  ∃ before after, log = before ++ .received message true :: after ∧
    message.messageId = messageId ∧ ∀ event ∈ after, ¬event.Touches messageId

/-- A PUBLISH of the packet id was accepted and not released yet. -/
def Pending (log : List Event) (messageId : ℤ) : Prop := ∃ message, Latest log messageId message

/-- A PUBLISH is accepted if its packet id is pending or fewer ids are pending than fit, and a
PUBREL releases the content of the latest PUBLISH. -/
def Exact (clientId : Str) (capacity : ℕ) (log : List Event) : Event → Prop
  | .received message accepted => accepted = true ↔
      Pending log message.messageId ∨ {messageId | Pending log messageId}.encard < capacity
  | .released messageId result => ∀ content, result.map awaited = some content ↔
      ∃ message, Latest log messageId message ∧ published clientId message = content

lemma latest_concat {log : List Event} {event : Event} {messageId : ℤ}
    {message : MqttPublishMessage} : Latest (log ++ [event]) messageId message ↔
      event = .received message true ∧ message.messageId = messageId ∨
        Latest log messageId message ∧ ¬event.Touches messageId := by
  constructor
  · rintro ⟨before, after, hlog, hid, hafter⟩
    rcases eq_nil_or_concat' after with rfl | ⟨init, last, rfl⟩
    · obtain ⟨-, hlast⟩ := append_inj' hlog rfl
      exact Or.inl ⟨singleton_inj.1 hlast, hid⟩
    · rw [← cons_append, ← append_assoc] at hlog
      obtain ⟨hinit, hlast⟩ := append_inj' hlog rfl
      obtain rfl := singleton_inj.1 hlast
      refine Or.inr ⟨⟨before, init, hinit, hid, ?_⟩, hafter _ (by simp)⟩
      intro e he
      exact hafter e (mem_append_left _ he)
  · rintro (⟨rfl, hid⟩ | ⟨⟨before, after, rfl, hid, hafter⟩, hevent⟩)
    · exact ⟨log, [], rfl, hid, fun e he => absurd he not_mem_nil⟩
    · refine ⟨before, after ++ [event], by simp, hid, fun e he => ?_⟩
      rcases mem_append.1 he with he | he
      · exact hafter e he
      · rw [mem_singleton.1 he]
        exact hevent

/-! ### The invariant -/

/-- What is kept is what the log says, and the log is as it should be. -/
structure Inv (clientId : Str) (capacity : ℕ) (s : Session kind) : Prop where
  client : s.thisClientId = clientId
  get : ∀ messageId a, s.awaits.get messageId = some a ↔ ∃ message, Latest s.log messageId message ∧
    message.convert2MqttAwaitMessage clientId = a
  full : s.awaits.capacity = capacity
  exact : Allowed (Exact clientId capacity) s.log

variable {clientId : Str} {capacity : ℕ} {s : Session kind}

lemma Inv.pending (h : Inv clientId capacity s) (messageId : ℤ) :
    s.awaits.get messageId ≠ none ↔ Pending s.log messageId := by
  rw [Option.ne_none_iff_exists']
  constructor
  · rintro ⟨a, ha⟩
    obtain ⟨message, hlatest, -⟩ := (h.get messageId a).1 ha
    exact ⟨message, hlatest⟩
  · rintro ⟨message, hlatest⟩
    exact ⟨_, (h.get messageId _).2 ⟨message, hlatest, rfl⟩⟩

lemma Inv.size_lt (h : Inv clientId capacity s) : (s.awaits.size : ℤ) < s.awaits.capacity ↔
    {messageId | Pending s.log messageId}.encard < capacity := by
  have hset : {messageId | Pending s.log messageId} = {messageId | s.awaits.get messageId ≠ none} :=
    Set.ext fun messageId => (h.pending messageId).symm
  rw [hset, s.awaits.encard_pending, h.full, Nat.cast_lt, Nat.cast_lt]

/-- The message that is released has the content of its PUBLISH. -/
lemma Inv.awaited (h : Inv clientId capacity s) (messageId : ℤ) (content : Content) :
    (s.awaits.get messageId).map awaited = some content ↔
      ∃ message, Latest s.log messageId message ∧ published clientId message = content := by
  rw [Option.map_eq_some_iff]
  constructor
  · rintro ⟨a, ha, rfl⟩
    obtain ⟨message, hlatest, rfl⟩ := (h.get messageId a).1 ha
    exact ⟨message, hlatest, rfl⟩
  · rintro ⟨message, hlatest, rfl⟩
    exact ⟨_, (h.get messageId _).2 ⟨message, hlatest, rfl⟩, rfl⟩

lemma Inv.publish (h : Inv clientId capacity s) (hpos : 0 < capacity)
    (message : MqttPublishMessage) : Inv clientId capacity (s.step (.publish message)) := by
  obtain ⟨a, ha⟩ : ∃ a, a = message.convert2MqttAwaitMessage s.thisClientId := ⟨_, rfl⟩
  have hid : a.messageId = message.messageId := by rw [ha]; rfl
  have hcap : 0 < s.awaits.capacity := by
    rw [h.full]
    exact_mod_cast hpos
  have hiff := or_congr (h.pending message.messageId) h.size_lt
  rw [← hid] at hiff
  simp only [Session.step, Session.call, ← ha]
  by_cases hroom : s.awaits.get a.messageId ≠ none ∨ (s.awaits.size : ℤ) < s.awaits.capacity
  · obtain ⟨hfst, hcapacity, hget⟩ := s.awaits.receive_of_room hcap hroom
    rw [hfst]
    refine ⟨h.client, fun messageId b => ?_, hcapacity.trans h.full, ?_⟩
    · rw [hget messageId, hid]
      by_cases hmessageId : messageId = message.messageId
      · rw [if_pos hmessageId, Option.some_inj, ha, h.client]
        constructor
        · rintro rfl
          exact ⟨message, latest_concat.2 (Or.inl ⟨rfl, hmessageId.symm⟩), rfl⟩
        · rintro ⟨other, hlatest, rfl⟩
          rcases latest_concat.1 hlatest with ⟨heq, -⟩ | ⟨-, hnot⟩
          · cases heq
            rfl
          · exact absurd ⟨rfl, hmessageId.symm⟩ hnot
      · rw [if_neg hmessageId, h.get messageId b]
        refine exists_congr fun other => and_congr_left fun _ => ?_
        constructor
        · exact fun hlatest => latest_concat.2 (Or.inr ⟨hlatest, fun ht => hmessageId ht.2.symm⟩)
        · intro hlatest
          rcases latest_concat.1 hlatest with ⟨heq, hother⟩ | ⟨hold, -⟩
          · cases heq
            exact absurd hother.symm hmessageId
          · exact hold
    · exact allowed_concat.2 ⟨h.exact, iff_of_true rfl (hid ▸ hiff.1 hroom)⟩
  · rw [s.awaits.receive_of_full hroom]
    refine ⟨h.client, fun messageId b => ?_, h.full, ?_⟩
    · rw [h.get messageId b]
      refine exists_congr fun other => and_congr_left fun _ => ?_
      simp [latest_concat, Event.Touches]
    · exact allowed_concat.2 ⟨h.exact, iff_of_false Bool.false_ne_true fun hp =>
        hroom (hiff.2 (hid ▸ hp))⟩

lemma Inv.pubrel (h : Inv clientId capacity s) (messageId : ℤ) :
    Inv clientId capacity (s.step (.pubrel messageId)) := by
  obtain ⟨hresult, hcapacity, hget⟩ := s.awaits.release_eq messageId
  simp only [Session.step, Session.call, hresult]
  refine ⟨h.client, fun messageId' b => ?_, hcapacity.trans h.full, ?_⟩
  · rw [hget messageId']
    by_cases hid : messageId' = messageId
    · simp [latest_concat, Event.Touches, hid]
    · rw [if_neg hid, h.get messageId' b]
      refine exists_congr fun other => and_congr_left fun _ => ?_
      simp [latest_concat, Event.Touches, Ne.symm hid]
  · exact allowed_concat.2 ⟨h.exact, h.awaited messageId⟩

lemma Inv.step (h : Inv clientId capacity s) (hpos : 0 < capacity) (op : Op) :
    Inv clientId capacity (s.step op) := by
  cases op with
  | publish message => exact h.publish hpos message
  | pubrel messageId => exact h.pubrel messageId

lemma inv_new (hpos : 0 < capacity) (clientId : Str) (kind : SessionKind) :
    Inv clientId capacity (Session.new capacity clientId kind) := by
  refine ⟨rfl, fun messageId a => iff_of_false ?_ ?_, Awaits.capacity_create (by exact_mod_cast hpos),
    allowed_nil⟩
  · simp [Session.new]
  · rintro ⟨message, ⟨before, after, hlog, -⟩, -⟩
    simp [Session.new] at hlog

lemma inv_run (hpos : 0 < capacity) (clientId : Str) (kind : SessionKind) (ops : List Op) :
    Inv clientId capacity (run capacity clientId kind ops) := by
  have hfold : ∀ s : Session kind, Inv clientId capacity s →
      Inv clientId capacity (ops.foldl Session.step s) := by
    induction ops with
    | nil => exact fun s hs => hs
    | cons op ops ih => exact fun s hs => ih _ (hs.step hpos op)
  exact hfold _ (inv_new hpos clientId kind)

/-- The log has one entry for each packet. -/
lemma packet_foldl (s : Session kind) (ops : List Op) :
    (ops.foldl Session.step s).log.map Event.packet = s.log.map Event.packet ++ ops := by
  induction ops generalizing s with
  | nil => exact (append_nil _).symm
  | cons op ops ih =>
      have hpacket : (s.call op).1.packet = op := by cases op <;> rfl
      rw [foldl_cons, ih, Session.step, map_append, map_singleton, hpacket, append_assoc]
      rfl

/-! ### The two kinds of session -/

/-- What comes of a packet is determined by the log. -/
lemma call_eq {kind' : SessionKind} {s' : Session kind'} (h : Inv clientId capacity s)
    (h' : Inv clientId capacity s') (hpos : 0 < capacity) (hlog : s.log = s'.log) (op : Op) :
    (s.call op).1 = (s'.call op).1 := by
  cases op with
  | publish message =>
      have hexact : Exact clientId capacity s.log (s.call (.publish message)).1 :=
        (allowed_concat.1 (h.step hpos (.publish message)).exact).2
      have hexact' : Exact clientId capacity s'.log (s'.call (.publish message)).1 :=
        (allowed_concat.1 (h'.step hpos (.publish message)).exact).2
      simp only [Session.call, Exact, hlog] at hexact hexact' ⊢
      rw [Bool.eq_iff_iff.2 (hexact.trans hexact'.symm)]
  | pubrel messageId =>
      have hget : s.awaits.get messageId = s'.awaits.get messageId := by
        ext a
        rw [h.get, h'.get, hlog]
      simp only [Session.call, (s.awaits.release_eq messageId).1,
        (s'.awaits.release_eq messageId).1, hget]

lemma log_foldl_eq {kind' : SessionKind} {s' : Session kind'} (h : Inv clientId capacity s)
    (h' : Inv clientId capacity s') (hpos : 0 < capacity) (hlog : s.log = s'.log)
    (ops : List Op) : (ops.foldl Session.step s).log = (ops.foldl Session.step s').log := by
  induction ops generalizing s s' with
  | nil => exact hlog
  | cons op ops ih =>
      refine ih (h.step hpos op) (h'.step hpos op) ?_
      simp only [Session.step, hlog, call_eq h h' hpos hlog op]

/-- Each PUBREL releases the content of the latest PUBLISH of its packet id that was accepted since
the PUBREL before, a PUBLISH is refused only when its packet id is new and the store full, and both
kinds of session accept and release the same. -/
theorem exactlyOnce_run {capacity : ℕ} (hpos : 0 < capacity) (clientId : Str) (ops : List Op) :
    (∀ kind, (run capacity clientId kind ops).log.map Event.packet = ops ∧
      Allowed (Exact clientId capacity) (run capacity clientId kind ops).log) ∧
      (run capacity clientId .transient ops).log = (run capacity clientId .persistent ops).log := by
  refine ⟨fun kind => ⟨packet_foldl (Session.new capacity clientId kind) ops,
    (inv_run hpos clientId kind ops).exact⟩, ?_⟩
  exact log_foldl_eq (inv_new hpos clientId .transient) (inv_new hpos clientId .persistent) hpos rfl
    ops

/-- Two packets under the same id and one under another id, for which there is no room. -/
def sampleOps : List Op :=
  let publish : ℤ → Bool → Op := fun messageId isDup =>
    .publish ⟨"t".toList, messageId, [], .exactlyOnce, isDup, false⟩
  [publish 1 false, publish 1 true, publish 2 false, .pubrel 1, .pubrel 2]

theorem exactlyOnce_run_sample :
    (∀ kind, (run (1 : ℕ) "c".toList kind sampleOps).log.map Event.packet = sampleOps ∧
      Allowed (Exact "c".toList 1) (run (1 : ℕ) "c".toList kind sampleOps).log) ∧
      (run (1 : ℕ) "c".toList .transient sampleOps).log =
        (run (1 : ℕ) "c".toList .persistent sampleOps).log :=
  exactlyOnce_run (by decide) "c".toList sampleOps

/-! ### The wrapper of a broker -/

/-- The registered wrapper of the client keeps these messages. -/
def Keeps (b : Broker) (clientId : Str) : {kind : SessionKind} → Awaits kind → Prop
  | .transient, m => ∃ fields queue inflights,
      b.getWrapper clientId = some (.transient fields queue inflights (ExpiringMap.entries m)) ∧
      ExpiringMap.sizeOf b.cacheService.config.sessionAwaitRelMaxCapacity = ExpiringMap.maxSize m
  | .persistent, m => ∃ fields, b.getWrapper clientId = some (.persistent fields) ∧
      b.cacheService.awaitCache.get fields.thisClientId = some m

/-- The wrapper is put back with other messages. -/
lemma keeps_putWrapper {b : Broker} {clientId : Str} {w : Wrapper}
    (hget : b.getWrapper clientId = some w) (fields : WrapperFields)
    (queue : BoundedQueue MqttMessage) (inflights : PlainMap ℤ MqttMessage)
    (m : ExpiringMap ℤ MqttAwaitMessage)
    (hconfig : ExpiringMap.sizeOf b.cacheService.config.sessionAwaitRelMaxCapacity = m.maxSize) :
    @Keeps (b.putWrapper clientId (.transient fields queue inflights m.entries)) clientId .transient
      m := by
  have hv := Broker.valid_of_getWrapper hget
  rw [Broker.putWrapper_eq hv]
  refine ⟨fields, queue, inflights, ?_, hconfig⟩
  rw [Broker.getWrapper_eq hv]
  exact PlainMap.get_put_self _ _ _

variable {b : Broker} {clientId : Str} {m : Awaits kind}

/-- `receiveQos2Message` of the broker is the one of the registered wrapper. -/
lemma Keeps.receive (h : Keeps b clientId m) (a : MqttAwaitMessage) :
    Keeps (b.receiveQos2Message clientId a) clientId (m.receiveQos2Message a).2 := by
  cases kind with
  | transient =>
      obtain ⟨fields, queue, inflights, hget, hconfig⟩ := h
      simp only [Broker.receiveQos2Message, hget, hconfig]
      exact keeps_putWrapper hget fields queue inflights (ExpiringMap.putExt m a.messageId a).2
        (hconfig.trans (ExpiringMap.maxSize_putExt m a.messageId a).symm)
  | persistent =>
      obtain ⟨fields, hget, hawaits⟩ := h
      simp only [Broker.receiveQos2Message, hget, hawaits]
      exact ⟨fields, hget, PlainMap.get_put_self _ _ _⟩

/-- `releaseQos2Message` of the broker is the one of the registered wrapper. -/
lemma Keeps.release (h : Keeps b clientId m) (messageId : ℤ) :
    (b.releaseQos2Message clientId messageId).1 = (m.releaseQos2Message messageId).1 ∧
      Keeps (b.releaseQos2Message clientId messageId).2 clientId
        (m.releaseQos2Message messageId).2 := by
  cases kind with
  | transient =>
      obtain ⟨fields, queue, inflights, hget, hconfig⟩ := h
      simp only [Broker.releaseQos2Message, hget]
      exact ⟨rfl, keeps_putWrapper hget fields queue inflights
        ⟨(ExpiringMap.entries m).remove messageId, ExpiringMap.maxSize m⟩ hconfig⟩
  | persistent =>
      obtain ⟨fields, hget, hawaits⟩ := h
      simp only [Broker.releaseQos2Message, hget, hawaits]
      exact ⟨rfl, fields, hget, PlainMap.get_put_self _ _ _⟩

/-- A packet that the broker handles with the registered wrapper. -/
def handle (b : Broker) (clientId : Str) : Op → Broker
  | .publish message =>
      b.receiveQos2Message clientId (message.convert2MqttAwaitMessage clientId)
  | .pubrel messageId => (b.releaseQos2Message clientId messageId).2

/-- A broker whose wrapper of the client keeps nothing at first keeps what the session keeps. -/
theorem keeps_run {b : Broker} {clientId : Str}
    (h : Keeps b clientId (Awaits.create capacity kind)) (ops : List Op) :
    Keeps (ops.foldl (fun b op => handle b clientId op) b) clientId
      (run capacity clientId kind ops).awaits := by
  have hfold : ∀ (b : Broker) (s : Session kind), s.thisClientId = clientId →
      Keeps b clientId s.awaits → Keeps (ops.foldl (fun b op => handle b clientId op) b) clientId
        (ops.foldl Session.step s).awaits := by
    induction ops with
    | nil => exact fun b s _ hkeeps => hkeeps
    | cons op ops ih =>
        intro b s hclient hkeeps
        refine ih _ _ hclient ?_
        cases op with
        | publish message =>
            rw [← hclient] at hkeeps ⊢
            exact hkeeps.receive _
        | pubrel messageId => exact (hkeeps.release messageId).2
  exact hfold b _ rfl h

end InboundQos2

end Stuart
