/-
How often a message is sent again before it is given up.

The counter of the retries is stored with the message.  `retry` compares it with the configured
maximum, and gives the message up when it is reached; but it is raised also where nothing is sent:
by a persistent wrapper that is not connected, by the retry of a PUBREL that cannot be written, and
by `open`, which retries every stored message before the new endpoint is accepted.  So a message is
never sent again too often (`notMore_run`), but it may be given up without having been sent again at
all.  If the counter is raised only for what is sent, it is the number of retransmissions, and
a message is given up after as many as are configured (`account_run`).
-/
import Stuart.Sessions.Dequeue
import Stuart.Verticles.Deliveries

namespace Stuart

open List Lib

namespace RetryCount

open SessionWrapper Deliveries

variable {kind : SessionKind}

inductive Event where
  /-- the message, or its PUBREL, is sent again; `max` is the configured maximum -/
  | retransmitted (uid : ℕ) (max : ℤ)
  /-- `retry` gives the message up -/
  | discarded (uid : ℕ) (max : ℤ)
deriving DecidableEq

/-- A wrapper with what its retries have done. -/
structure Session (kind : SessionKind) where
  wrapper : SessionWrapper kind
  log : List Event

def Session.new (config : Config) (clientId : Str) (kind : SessionKind) : Session kind :=
  ⟨start config clientId kind, []⟩

/-- The message of a packet that a retry has written. -/
def owner (w : SessionWrapper kind) : MqttPacket → Option ℕ
  | .publish _ uid _ _ _ _ _ => some uid
  | .pubrel messageId => (w.inflights.get messageId).map MqttMessage.uid

/-- The packets that were written from `w` to `w'`. -/
def resent (w w' : SessionWrapper kind) : List Event :=
  ((w'.endpoint.written.drop w.endpoint.written.length).filterMap (owner w)).map fun uid =>
    .retransmitted uid w.config.sessionInflightMaxRetries

/-- What the `retryInflight` of `open` sends. -/
def openEvents : {kind : SessionKind} → SessionWrapper kind → Option Config → List Event
  | .transient, _, _ => []
  | .persistent, w, config => resent (reconnected w config)
      (PersistentSessionWrapper.retryInflights (reconnected w config))

def events (w : SessionWrapper kind) : Op → List Event
  | .retry messageId =>
      match w.inflights.get messageId with
      | none => []
      | some message =>
          if message.retry ≥ w.config.sessionInflightMaxRetries then
            [.discarded message.uid w.config.sessionInflightMaxRetries]
          else resent w (w.retry messageId)
  | .reconnect config => openEvents w config
  | _ => []

def step (s : Session kind) (op : Op) : Option (Session kind) :=
  (perform s.wrapper op).map fun w => ⟨w, s.log ++ events s.wrapper op⟩

/-! ### The law and the condition -/

/-- The event is a retransmission of the message. -/
def Event.resends (uid : ℕ) : Event → Bool
  | .retransmitted uid' _ => decide (uid' = uid)
  | .discarded _ _ => false

/-- How often a message was sent again. -/
def count (log : List Event) (uid : ℕ) : ℤ := log.countP (Event.resends uid)

/-- A message is sent again only if it was sent again less often than the maximum. -/
def NotMore (before : List Event) : Event → Prop
  | .retransmitted uid max => count before uid < max
  | .discarded _ _ => True

/-- And it is given up only after as many retransmissions. -/
def AccountOk (before : List Event) : Event → Prop
  | .retransmitted uid max => count before uid < max
  | .discarded uid max => max ≤ count before uid

/-- The retry of a message is not counted without a packet: the endpoint is connected, or the
wrapper does nothing. -/
def CountOk (w : SessionWrapper kind) (message : MqttMessage) : Prop :=
  w.endpoint.isConnected = true ∨ kind = .transient ∧
    ¬(message.qos = .exactlyOnce ∧ message.status = MsgConst.PUBREC_STATUS)

/-- The condition on a step: a retry is not counted without a packet, and a session is opened
without inflight messages. -/
def StepOk (s : Session kind) : Op → Prop
  | .retry messageId => ∀ message ∈ s.wrapper.inflights.get messageId,
      message.retry < s.wrapper.config.sessionInflightMaxRetries → CountOk s.wrapper message
  | .reconnect _ => s.wrapper.inflights.keys = ∅
  | _ => True

instance (w : SessionWrapper kind) (message : MqttMessage) : Decidable (CountOk w message) :=
  inferInstanceAs (Decidable (_ ∨ _))

instance decidableStepOk (s : Session kind) : ∀ op : Op, Decidable (StepOk s op)
  | .retry messageId => inferInstanceAs (Decidable (∀ message ∈ s.wrapper.inflights.get messageId,
      _ → _))
  | .reconnect _ => inferInstanceAs (Decidable (_ = ∅))
  | .publishMessage _ _ | .publishRetainMessage _ | .storeMessage _ _ | .receivePuback _
  | .receivePubrec _ | .receivePubcomp _ | .publishRelease _ | .publishCachedMessage
  | .connectivity _ => inferInstanceAs (Decidable True)

/-! ### The invariant -/

/-- A relation of the counter and the number of retransmissions, and a law of the events that
follows from it. -/
structure Counter (R : ℤ → ℤ → Prop) (Q : List Event → Event → Prop) : Prop where
  zero : R 0 0
  both : ∀ {retry count}, R retry count → R (retry + 1) (count + 1)
  le : ∀ {retry count}, R retry count → count ≤ retry
  resend : ∀ {before uid max}, count before uid < max → Q before (.retransmitted uid max)
  discard : ∀ {before uid max retry}, R retry (count before uid) → max ≤ retry →
    Q before (.discarded uid max)

/-- A counter that is not exact may be raised without a packet. -/
def Silent (R : ℤ → ℤ → Prop) : Prop := ∀ retry count, R retry count → R (retry + 1) count

/-- The counter is never behind. -/
lemma counter_notMore : Counter (fun retry count => count ≤ retry) NotMore where
  zero := le_rfl
  both := fun h => by omega
  le := id
  resend := id
  discard := fun _ _ => trivial

/-- The counter is exact. -/
lemma counter_accountOk : Counter (fun retry count => retry = count) AccountOk where
  zero := rfl
  both := fun h => by omega
  le := fun h => by omega
  resend := id
  discard := by
    rintro before uid max retry rfl hmax
    exact hmax

/-- A wrapper with the messages `items` that wait: no message is there twice, and its counter is in
the relation to its retransmissions. -/
structure Accounted (R : ℤ → ℤ → Prop) (count : ℕ → ℤ) (w : SessionWrapper kind)
    (items : List MqttMessage) : Prop where
  stored : ∀ key message, w.inflights.get key = some message → message.messageId = key ∧
    message.uid < w.ledger.accepted.length ∧ R message.retry (count message.uid)
  queued : ∀ message ∈ items,
    message.uid < w.ledger.accepted.length ∧ R message.retry (count message.uid)
  nodup : (items.map MqttMessage.uid).Nodup
  apart : ∀ message ∈ items, ∀ key other, w.inflights.get key = some other →
    other.uid ≠ message.uid
  single : ∀ key key' message message', w.inflights.get key = some message →
    w.inflights.get key' = some message' → message.uid = message'.uid → key = key'
  fresh : ∀ uid, w.ledger.accepted.length ≤ uid → count uid = 0

/-- A message that is nowhere yet. -/
structure Ready (R : ℤ → ℤ → Prop) (count : ℕ → ℤ) (w : SessionWrapper kind)
    (items : List MqttMessage) (message : MqttMessage) : Prop where
  accounted : Accounted R count w items
  known : message.uid < w.ledger.accepted.length
  counted : R message.retry (count message.uid)
  unqueued : message.uid ∉ items.map MqttMessage.uid
  unstored : ∀ key other, w.inflights.get key = some other → other.uid ≠ message.uid

variable {R : ℤ → ℤ → Prop} {Q : List Event → Event → Prop} {counts : ℕ → ℤ}
  {w w' : SessionWrapper kind}
  {items items' : List MqttMessage} {message : MqttMessage}

/-- The inflight messages change: each is an old one, with the same counter. -/
lemma Accounted.inflights (h : Accounted R counts w items)
    (haccepted : w'.ledger.accepted = w.ledger.accepted)
    (hget : ∀ key message, w'.inflights.get key = some message → ∃ message',
      w.inflights.get key = some message' ∧ message.uid = message'.uid ∧
        message.messageId = message'.messageId ∧ message.retry = message'.retry) :
    Accounted R counts w' items := by
  refine ⟨fun key message hkey => ?_, ?_, h.nodup, fun message hmem key other hkey => ?_,
    fun key key' message message' hkey hkey' huid => ?_, ?_⟩
  · obtain ⟨message', hold, huid, hid, hretry⟩ := hget key message hkey
    rw [haccepted, huid, hid, hretry]
    exact h.stored key message' hold
  · rw [haccepted]
    exact h.queued
  · obtain ⟨other', hold, huid, -⟩ := hget key other hkey
    rw [huid]
    exact h.apart message hmem key other' hold
  · obtain ⟨first, hfirst, heq, -⟩ := hget key message hkey
    obtain ⟨second, hsecond, heq', -⟩ := hget key' message' hkey'
    exact h.single key key' first second hfirst hsecond (by rw [← heq, ← heq', huid])
  · rw [haccepted]
    exact h.fresh

lemma Accounted.same (h : Accounted R counts w items) (hinflights : w'.inflights = w.inflights)
    (haccepted : w'.ledger.accepted = w.ledger.accepted) : Accounted R counts w' items := by
  refine h.inflights haccepted fun key message hget => ⟨message, ?_, rfl, rfl, rfl⟩
  rw [← hinflights]
  exact hget

lemma Accounted.sublist (h : Accounted R counts w items) (hsub : items' <+ items) :
    Accounted R counts w items' :=
  ⟨h.stored, fun message hmem => h.queued message (hsub.subset hmem), h.nodup.sublist (hsub.map _),
    fun message hmem => h.apart message (hsub.subset hmem), h.single, h.fresh⟩

/-- The first message that waits is stored and sent. -/
lemma Accounted.sent (h : Accounted R counts w (message :: items)) :
    Accounted R counts (w.sent message) items := by
  obtain ⟨hlt, hcount⟩ := h.queued message mem_cons_self
  have hrest := h.sublist (sublist_cons_self message items)
  have hnew : message.uid ∉ items.map MqttMessage.uid := (nodup_cons.1 h.nodup).1
  have hapart := h.apart message mem_cons_self
  have hget : ∀ key other, (w.sent message).inflights.get key = some other →
      key = nextId w.endpoint.lastMessageId ∧
          other = { message with messageId := nextId w.endpoint.lastMessageId } ∨
        w.inflights.get key = some other := by
    intro key other hkey
    rw [sent_inflights] at hkey
    exact Inflights.get_put hkey
  refine ⟨fun key other hkey => ?_, ?_, hrest.nodup, fun other hmem key stored hkey => ?_,
    fun key key' other other' hkey hkey' huid => ?_, ?_⟩
  · rw [sent_ledger]
    rcases hget key other hkey with ⟨rfl, rfl⟩ | hold
    · exact ⟨rfl, hlt, hcount⟩
    · exact h.stored key other hold
  · rw [sent_ledger]
    exact hrest.queued
  · rcases hget key stored hkey with ⟨-, rfl⟩ | hold
    · rintro heq
      exact hnew (mem_map.2 ⟨other, hmem, heq.symm⟩)
    · exact hrest.apart other hmem key stored hold
  · rcases hget key other hkey with ⟨rfl, rfl⟩ | hold
    · rcases hget key' other' hkey' with ⟨rfl, rfl⟩ | hold'
      · rfl
      · exact absurd huid.symm (hapart key' other' hold')
    · rcases hget key' other' hkey' with ⟨rfl, rfl⟩ | hold'
      · exact absurd huid (hapart key other hold)
      · exact h.single key key' other other' hold hold' huid
  · rw [sent_ledger]
    exact h.fresh

/-- The message waits behind the others. -/
lemma Ready.wait (h : Ready R counts w items message) :
    Accounted R counts w (items ++ [message]) := by
  refine ⟨h.accounted.stored, fun other hmem => ?_, ?_, fun other hmem => ?_, h.accounted.single,
    h.accounted.fresh⟩
  · rcases mem_append.1 hmem with hold | heq
    · exact h.accounted.queued other hold
    · rw [mem_singleton.1 heq]
      exact ⟨h.known, h.counted⟩
  · rw [map_append]
    refine nodup_append.2 ⟨h.accounted.nodup, nodup_singleton _, fun uid huid uid' huid' heq =>
      h.unqueued ?_⟩
    exact mem_singleton.1 huid' ▸ heq ▸ huid
  · rcases mem_append.1 hmem with hold | heq
    · exact h.accounted.apart other hold
    · rw [mem_singleton.1 heq]
      exact h.unstored

lemma methodRule (R : ℤ → ℤ → Prop) (counts : ℕ → ℤ) :
    MethodRule (@Accounted kind R counts) (Ready R counts) where
  same := fun h hs => h.same hs.inflights hs.accepted
  sublist := Accounted.sublist
  remove := fun messageId h => h.inflights rfl fun key message hget =>
    ⟨message, Inflights.get_remove hget, rfl, rfl, rfl⟩
  received := by
    intro w items messageId message h hmessage
    refine h.inflights rfl fun key other hget => ?_
    rcases Inflights.get_put hget with ⟨rfl, rfl⟩ | hold
    · exact ⟨message, hmessage, rfl, rfl, rfl⟩
    · exact ⟨other, hold, rfl, rfl, rfl⟩
  sent := fun h _ _ _ => h.sent
  sentTwice := fun h _ _ _ => (h.same (publish_inflights _ _ _) (by rw [publish_ledger])).sent
  inv := Ready.accounted
  wait := fun h _ => h.wait
  direct := fun h _ _ => h.accounted.same (publish_inflights _ _ _) (by rw [publish_ledger])

/-- A message that is handed to the session is a new one, with no retries yet. -/
lemma Accounted.ready (h : Accounted R counts w items) (hR : Counter R Q)
    (hretry : message.retry = 0) (qos : MqttQoS) :
    Ready R counts { w with ledger := w.ledger.accept qos } items
      (w.copyMqttMessage message qos) := by
  have hlength : ({ w with ledger := w.ledger.accept qos } :
      SessionWrapper kind).ledger.accepted.length = w.ledger.accepted.length + 1 := length_append
  refine ⟨⟨fun key other hget => ?_, fun other hmem => ?_, h.nodup, h.apart, h.single, ?_⟩, ?_, ?_,
    fun hmem => ?_, fun key other hget heq => ?_⟩
  · obtain ⟨hkeyed, hlt, hcount⟩ := h.stored key other hget
    exact ⟨hkeyed, by omega, hcount⟩
  · obtain ⟨hlt, hcount⟩ := h.queued other hmem
    exact ⟨by omega, hcount⟩
  · rw [hlength]
    exact fun uid huid => h.fresh uid (by omega)
  · rw [hlength]
    exact Nat.lt_succ_self _
  · show R message.retry (counts w.ledger.accepted.length)
    rw [hretry, h.fresh _ le_rfl]
    exact hR.zero
  · obtain ⟨other, hother, heq⟩ := mem_map.1 hmem
    have hlt := (h.queued other hother).1
    have huid : other.uid = w.ledger.accepted.length := heq
    omega
  · have hlt := (h.stored key other hget).2.1
    have huid : other.uid = w.ledger.accepted.length := heq
    omega

/-! ### Retries -/

/-- The number of retransmissions after one more of a message. -/
def bump (counts : ℕ → ℤ) (uid : ℕ) : ℕ → ℤ :=
  fun uid' => if uid' = uid then counts uid' + 1 else counts uid'

lemma count_retransmitted (log : List Event) (uid : ℕ) (max : ℤ) :
    count (log ++ [.retransmitted uid max]) = bump (count log) uid := by
  funext uid'
  simp only [count, bump]
  rw [countP_append, countP_singleton]
  by_cases heq : uid = uid'
  · simp [Event.resends, heq]
  · simp [Event.resends, heq, Ne.symm heq]

lemma count_discarded (log : List Event) (uid : ℕ) (max : ℤ) :
    count (log ++ [.discarded uid max]) = count log := by
  funext uid'
  simp only [count]
  rw [countP_append, countP_singleton]
  simp [Event.resends]

/-- The counter of an inflight message is raised, and maybe it is stored under a new id. -/
lemma Accounted.retried (h : Accounted R counts w items) {messageId newId : ℤ} {counts' : ℕ → ℤ}
    (hmessage : w.inflights.get messageId = some message)
    (haccepted : w'.ledger.accepted = w.ledger.accepted)
    (hget : ∀ key other, w'.inflights.get key = some other →
      (key = newId ∧ other = { message with messageId := newId, retry := message.retry + 1 }) ∨
        key ≠ messageId ∧ w.inflights.get key = some other)
    (hcount : R (message.retry + 1) (counts' message.uid))
    (hothers : ∀ uid, uid ≠ message.uid → counts' uid = counts uid) :
    Accounted R counts' w' items := by
  have hlt := (h.stored messageId message hmessage).2.1
  have hne : ∀ key other, key ≠ messageId → w.inflights.get key = some other →
      other.uid ≠ message.uid := by
    intro key other hkey hother heq
    exact hkey (h.single key messageId other message hother hmessage heq)
  refine ⟨fun key other hkey => ?_, fun other hmem => ?_, h.nodup,
    fun item hmem key other hkey => ?_,
    fun key key' other other' hkey hkey' huid => ?_, fun uid huid => ?_⟩
  · rw [haccepted]
    rcases hget key other hkey with ⟨rfl, rfl⟩ | ⟨hkey', hold⟩
    · exact ⟨rfl, hlt, hcount⟩
    · obtain ⟨hkeyed, hknown, hold'⟩ := h.stored key other hold
      rw [hothers _ (hne key other hkey' hold)]
      exact ⟨hkeyed, hknown, hold'⟩
  · rw [haccepted, hothers _ (h.apart other hmem messageId message hmessage).symm]
    exact h.queued other hmem
  · rcases hget key other hkey with ⟨-, rfl⟩ | ⟨-, hold⟩
    · exact h.apart item hmem messageId message hmessage
    · exact h.apart item hmem key other hold
  · rcases hget key other hkey with ⟨rfl, rfl⟩ | ⟨hkeyne, hold⟩
    · rcases hget key' other' hkey' with ⟨rfl, -⟩ | ⟨hkeyne', hold'⟩
      · rfl
      · exact absurd huid.symm (hne key' other' hkeyne' hold')
    · rcases hget key' other' hkey' with ⟨-, rfl⟩ | ⟨-, hold'⟩
      · exact absurd huid (hne key other hkeyne hold)
      · exact h.single key key' other other' hold hold' huid
  · rw [haccepted] at huid
    rw [hothers uid (by omega)]
    exact h.fresh uid huid

/-- What is stored after a retry, unless the wrapper does nothing. -/
lemma get_retryInflight (hr : w.endpoint.InRange)
    (hmessage : w.inflights.get message.messageId = some message)
    (hdoes : w.endpoint.isConnected = true ∨ kind = .persistent ∨
      message.qos = .exactlyOnce ∧ message.status = MsgConst.PUBREC_STATUS) :
    ∃ newId, ∀ key other, (w.retryInflight message).2.inflights.get key = some other →
      (key = newId ∧ other = { message with messageId := newId, retry := message.retry + 1 }) ∨
        key ≠ message.messageId ∧ w.inflights.get key = some other := by
  -- the counter is raised under the old id
  have hstays : ∀ key other, (w.inflights.put message.messageId
      { message with retry := message.retry + 1 }).get key = some other →
      (key = message.messageId ∧ other = { message with retry := message.retry + 1 }) ∨
        key ≠ message.messageId ∧ w.inflights.get key = some other := by
    intro key other hother
    rw [Inflights.get_put_of_get (by simp [hmessage])] at hother
    split_ifs at hother with heq
    · exact Or.inl ⟨heq, (Option.some.inj hother).symm⟩
    · exact Or.inr ⟨heq, hother⟩
  rw [SessionWrapper.retryInflight]
  dsimp only
  split_ifs with hstay hpos hkind
  · refine ⟨message.messageId, fun key other hother => hstays key other ?_⟩
    rw [publishRelease_inflights] at hother
    exact hother
  · refine ⟨IdUtil.nextMessageId w.endpoint, fun key other hother => ?_⟩
    rw [publish_inflights] at hother
    rcases Inflights.get_put hother with hnew | hold
    · exact Or.inl hnew
    · refine Or.inr ⟨?_, Inflights.get_remove hold⟩
      rintro rfl
      rw [show (w.removeInflight message.messageId).inflights.get message.messageId = none from
        Inflights.get_remove_self _ _] at hold
      cases hold
  · exact ⟨message.messageId, hstays⟩
  · exfalso
    rcases hdoes with hc | hpersistent | hreceived
    · exact hpos (nextMessageId_of_connected hc hr).2
    · exact hkind hpersistent
    · exact hstay hreceived

/-- On a connected endpoint a retry writes one packet, which is one of the message. -/
lemma resent_retryInflight (hc : w.endpoint.isConnected = true) (hr : w.endpoint.InRange)
    (hmessage : w.inflights.get message.messageId = some message) :
    resent w (w.retryInflight message).2 =
      [.retransmitted message.uid w.config.sessionInflightMaxRetries] := by
  obtain ⟨packet, hwritten, howner⟩ : ∃ packet,
      (w.retryInflight message).2.endpoint.written = w.endpoint.written ++ [packet] ∧
        owner w packet = some message.uid := by
    rw [SessionWrapper.retryInflight]
    dsimp only
    by_cases hstay : message.qos = .exactlyOnce ∧ message.status = MsgConst.PUBREC_STATUS
    · rw [if_pos hstay, publishRelease_of_connected]
      · exact ⟨_, rfl, congrArg (Option.map MqttMessage.uid) hmessage⟩
      · exact hc
    · rw [if_neg hstay, if_pos (nextMessageId_of_connected hc hr).2, publish_of_connected]
      · exact ⟨_, rfl, rfl⟩
      · exact hc
  simp only [resent]
  rw [hwritten, drop_left, filterMap_cons_some howner]
  rfl

lemma resent_of_endpoint (h : w'.endpoint = w.endpoint) : resent w w' = [] := by
  simp only [resent]
  rw [h, drop_length]
  rfl

lemma Accounted.keyed (h : Accounted R counts w items) : w.inflights.Keyed :=
  fun key message hget => (h.stored key message hget).1

/-- A retry that sends its packet. -/
lemma Accounted.retryInflight (h : Accounted R counts w items) (hR : Counter R Q)
    (hc : w.endpoint.isConnected = true) (hr : w.endpoint.InRange)
    (hmessage : w.inflights.get message.messageId = some message) :
    Accounted R (bump counts message.uid) (w.retryInflight message).2 items := by
  obtain ⟨newId, hget⟩ := get_retryInflight hr hmessage (Or.inl hc)
  refine h.retried hmessage ?_ hget ?_ fun uid hne => if_neg hne
  · rw [retryInflight_ledger]
  · rw [bump]
    rw [if_pos rfl]
    exact hR.both (h.stored _ message hmessage).2.2

/-- A retry that sends nothing, if it does nothing either or the counter may be raised. -/
lemma Accounted.retryInflight_silent (h : Accounted R counts w items)
    (hc : w.endpoint.isConnected = false) (hr : w.endpoint.InRange)
    (hmessage : w.inflights.get message.messageId = some message)
    (hok : CountOk w message ∨ Silent R) :
    Accounted R counts (w.retryInflight message).2 items := by
  by_cases hdoes : kind = .persistent ∨
      message.qos = .exactlyOnce ∧ message.status = MsgConst.PUBREC_STATUS
  · have hsilent : Silent R := by
      refine hok.resolve_left ?_
      rintro (hconnected | ⟨hkind, hnot⟩)
      · rw [hc] at hconnected
        contradiction
      · rcases hdoes with hpersistent | hreceived
        · rw [hkind] at hpersistent
          contradiction
        · exact hnot hreceived
    obtain ⟨newId, hget⟩ := get_retryInflight hr hmessage (Or.inr hdoes)
    refine h.retried hmessage ?_ hget ?_ fun uid _ => rfl
    · rw [retryInflight_ledger]
    · exact hsilent _ _ (h.stored _ message hmessage).2.2
  · obtain ⟨hkind, hnot⟩ := not_or.1 hdoes
    have hidle : (w.retryInflight message).2 = w := by
      simp only [SessionWrapper.retryInflight]
      rw [if_neg hnot, nextMessageId_of_not_connected hc, if_neg (by decide), if_neg hkind]
    rw [hidle]
    exact h

/-! ### Runs -/

/-- The invariant of a run. -/
structure Inv (R : ℤ → ℤ → Prop) (Q : List Event → Event → Prop) (s : Session kind) : Prop where
  accounted : Accounted R (count s.log) s.wrapper s.wrapper.queue.items
  inRange : s.wrapper.endpoint.InRange
  allowed : Allowed Q s.log

lemma inv_new (R : ℤ → ℤ → Prop) (Q : List Event → Event → Prop) (config : Config)
    (clientId : Str) : Inv R Q (Session.new config clientId kind) := by
  have hqueue : (Session.new config clientId kind).wrapper.queue.items = [] :=
    queue_start config clientId kind
  have hget : ∀ key, (Session.new config clientId kind).wrapper.inflights.get key = none :=
    get_start config clientId kind
  refine ⟨⟨fun key message h => ?_, ?_, ?_, ?_, fun key _ message _ h => ?_, fun _ _ => rfl⟩,
    (endpoint_start config clientId kind).1, allowed_nil⟩
  · rw [hget] at h
    cases h
  · rw [hqueue]
    exact nofun
  · rw [hqueue]
    exact nodup_nil
  · rw [hqueue]
    exact nofun
  · rw [hget] at h
    cases h

/-- A step without an event. -/
lemma Inv.quiet {s : Session kind} (h : Inv R Q s)
    (haccounted : Accounted R (count s.log) w w.queue.items) (hkept : Kept s.wrapper w) :
    Inv R Q ⟨w, s.log ++ []⟩ := by
  rw [append_nil]
  exact ⟨haccounted, hkept.inRange h.inRange, h.allowed⟩

/-- The loop of `publishRetainMessage`. -/
lemma Accounted.handleRetains (h : Accounted R counts w w.queue.items) (hR : Counter R Q)
    (hr : w.endpoint.InRange) {retains : List MqttMessage}
    (hretry : ∀ message ∈ retains, message.retry = 0) :
    Accounted R counts (handleRetains w retains) (handleRetains w retains).queue.items ∧
      Kept w (handleRetains w retains) := by
  induction retains generalizing w with
  | nil => exact ⟨h, Kept.refl w⟩
  | cons message retains ih =>
      have hready := h.ready hR (hretry message mem_cons_self) message.qos
      have hledger : Kept w { w with ledger := w.ledger.accept message.qos } :=
        ⟨rfl, rfl, rfl, id, fun h => ⟨h, rfl⟩, id⟩
      have hkept := hledger.trans (kept_handleMessage _ (w.copyMqttMessage message message.qos))
      have hhandled := (methodRule R counts).handleMessage hready hr
      obtain ⟨hrest, hkept'⟩ := ih hhandled (hkept.inRange hr) fun other hmem =>
        hretry other (mem_cons_of_mem _ hmem)
      exact ⟨hrest, hkept.trans hkept'⟩

lemma Inv.retry {s : Session kind} (h : Inv R Q s) (hR : Counter R Q) {messageId : ℤ}
    (hok : StepOk s (.retry messageId) ∨ Silent R) :
    Inv R Q ⟨s.wrapper.retry messageId, s.log ++ events s.wrapper (.retry messageId)⟩ := by
  have hkept := kept_retry s.wrapper messageId
  cases hget : s.wrapper.inflights.get messageId with
  | none =>
      simp only [events, SessionWrapper.retry, hget]
      exact h.quiet h.accounted (Kept.refl _)
  | some message =>
      obtain rfl := h.accounted.keyed messageId message hget
      have hcount := (h.accounted.stored _ message hget).2.2
      by_cases hlast : message.retry ≥ s.wrapper.config.sessionInflightMaxRetries
      · have hevents : events s.wrapper (.retry message.messageId) =
            [.discarded message.uid s.wrapper.config.sessionInflightMaxRetries] := by
          simp only [events, hget, if_pos hlast]
        have hgiven := (methodRule R (count s.log)).giveUp h.accounted h.inRange
          message.messageId message
        rw [hevents]
        refine ⟨?_, hkept.inRange h.inRange, allowed_concat.2 ⟨h.allowed, hR.discard hcount hlast⟩⟩
        show Accounted R (count (s.log ++ [_])) _ _
        rw [count_discarded]
        simp only [SessionWrapper.retry, hget, if_pos hlast]
        exact hgiven
      · have hretry : s.wrapper.retry message.messageId = (s.wrapper.retryInflight message).2 := by
          simp only [SessionWrapper.retry, hget, if_neg hlast]
        have hevents : events s.wrapper (.retry message.messageId) =
            resent s.wrapper (s.wrapper.retryInflight message).2 := by
          simp only [events, hget, if_neg hlast, hretry]
        rw [hevents, hretry]
        rw [hretry] at hkept
        by_cases hc : s.wrapper.endpoint.isConnected = true
        · rw [resent_retryInflight hc h.inRange hget]
          refine ⟨?_, hkept.inRange h.inRange, allowed_concat.2 ⟨h.allowed, hR.resend ?_⟩⟩
          · show Accounted R (count (s.log ++ [_])) _ _
            rw [count_retransmitted, retryInflight_queue]
            exact h.accounted.retryInflight hR hc h.inRange hget
          · have := hR.le hcount
            omega
        · have hnot : s.wrapper.endpoint.isConnected = false := by simpa using hc
          rw [resent_of_endpoint (retryInflight_endpoint _ hnot _)]
          refine h.quiet ?_ hkept
          rw [retryInflight_queue]
          refine h.accounted.retryInflight_silent hnot h.inRange hget (hok.imp_left fun hstep => ?_)
          exact hstep message hget (by omega)

/-- Opening before the endpoint is accepted sends nothing. -/
lemma Inv.reconnect {s : Session .persistent} (h : Inv R Q s) {config : Option Config}
    (hok : StepOk s (.reconnect config) ∨ Silent R) :
    Inv R Q ⟨PersistentSessionWrapper.openWrapper (reconnected s.wrapper config),
      s.log ++ events s.wrapper (.reconnect config)⟩ := by
  obtain ⟨w, hw⟩ : ∃ w, w = reconnected s.wrapper config := ⟨_, rfl⟩
  have hr : w.endpoint.InRange := hw ▸ inRange_reconnected s.wrapper config
  have hc : w.endpoint.isConnected = false := hw ▸ not_connected_reconnected s.wrapper config
  have hledger : w.ledger = s.wrapper.ledger := by
    rw [hw]
    cases config <;> rfl
  have haccounted : Accounted R (count s.log) w w.queue.items := by
    have hsub : w.queue.items <+ s.wrapper.queue.items :=
      hw ▸ queue_reconnected_sublist s.wrapper config
    refine (h.accounted.sublist hsub).inflights (by rw [hledger]) fun key message hget => ?_
    rw [hw, get_reconnected] at hget
    exact ⟨message, hget, rfl, rfl, rfl⟩
  have hnone : (∀ key, w.inflights.get key = none) ∨ Silent R := by
    refine hok.imp_left fun hempty key => ?_
    rw [hw, get_reconnected]
    by_contra hstored
    have hmem := Inflights.mem_keys.2 hstored
    rw [show s.wrapper.inflights.keys = ∅ from hempty] at hmem
    exact absurd hmem (Finset.notMem_empty key)
  -- the loop changes the counters, if the relation allows it
  obtain ⟨hretried, hendpoint, -⟩ := @PersistentSessionWrapper.retryInflights_induction
    (fun w' => Accounted R (count s.log) w' w.queue.items ∧ w'.endpoint = w.endpoint ∧
      ((∀ key, w'.inflights.get key = none) ∨ Silent R))
    (by
      rintro w' key message ⟨haccounted', hendpoint, hnone'⟩ hget
      have hsilent : Silent R := by
        refine hnone'.resolve_left fun hempty => ?_
        rw [hempty key] at hget
        cases hget
      obtain rfl := haccounted'.keyed key message hget
      have hc' : w'.endpoint.isConnected = false := by rw [hendpoint, hc]
      refine ⟨haccounted'.retryInflight_silent hc' (hendpoint ▸ hr) hget (Or.inr hsilent), ?_,
        Or.inr hsilent⟩
      rw [retryInflight_endpoint w' hc', hendpoint])
    w ⟨haccounted, rfl, hnone⟩
  have hevents : events s.wrapper (.reconnect config) = [] := by
    show resent (reconnected s.wrapper config) _ = []
    rw [← hw]
    exact resent_of_endpoint hendpoint
  rw [hevents, append_nil, ← hw]
  rw [← PersistentSessionWrapper.retryInflights_queue] at hretried
  exact ⟨(methodRule R _).publishCachedMessage hretried (hendpoint ▸ hr),
    (PersistentSessionWrapper.kept_openWrapper w).inRange hr, h.allowed⟩

/-- One step, by cases on what happens. -/
lemma Inv.step {s s' : Session kind} {op : Op} (h : Inv R Q s) (hR : Counter R Q)
    (hok : StepOk s op ∨ Silent R) (hs : RetryCount.step s op = some s') : Inv R Q s' := by
  obtain ⟨w, hw, rfl⟩ := Option.map_eq_some_iff.1 hs
  have hrule := @methodRule kind R (count s.log)
  cases op with
  | publishMessage origin qos =>
      obtain rfl := Option.some.inj hw
      exact h.quiet (hrule.publishMessage h.inRange
        (h.accounted.ready hR origin.message_retry qos)) (kept_publishMessage _ _ _)
  | publishRetainMessage retains =>
      obtain rfl := Option.some.inj hw
      have hretry : ∀ message ∈ retains.map MqttRetainMessage.convert2MqttMessage,
          message.retry = 0 := by
        intro message hmem
        obtain ⟨retain, -, rfl⟩ := mem_map.1 hmem
        rfl
      obtain ⟨haccounted, hkept⟩ := h.accounted.handleRetains hR h.inRange hretry
      rcases publishRetainMessage_eq s.wrapper (retains.map MqttRetainMessage.convert2MqttMessage)
        with heq | heq
      · rw [heq]
        exact h.quiet haccounted hkept
      · rw [heq]
        exact h.quiet (hrule.publishCachedMessage haccounted (hkept.inRange h.inRange))
          (hkept.trans (kept_publishCachedMessage _))
  | storeMessage origin qos =>
      cases kind with
      | transient => cases hw
      | persistent =>
          have hready := h.accounted.ready hR origin.message_retry qos
          obtain ⟨hstored, hend⟩ := kept_storeMessage hrule hready (fun _ => hready.wait) hw
          show Inv R Q ⟨_, s.log ++ []⟩
          rw [append_nil]
          exact ⟨hstored, by rw [hend]; exact h.inRange, h.allowed⟩
  | receivePuback messageId =>
      obtain rfl := Option.some.inj hw
      exact h.quiet (hrule.receiveFinal h.accounted h.inRange messageId) (kept_receiveFinal _ _)
  | receivePubrec messageId =>
      obtain rfl := Option.some.inj hw
      exact h.quiet (hrule.receivePubrec h.accounted messageId) (kept_receivePubrec _ _)
  | receivePubcomp messageId =>
      obtain rfl := Option.some.inj hw
      exact h.quiet (hrule.receiveFinal h.accounted h.inRange messageId) (kept_receiveFinal _ _)
  | publishRelease messageId =>
      obtain rfl := Option.some.inj hw
      refine h.quiet ?_ (kept_publishRelease _ _)
      rw [publishRelease_queue]
      exact h.accounted.same (publishRelease_inflights _ _) (by rw [publishRelease_ledger])
  | retry messageId =>
      obtain rfl := Option.some.inj hw
      exact h.retry hR hok
  | publishCachedMessage =>
      obtain rfl := Option.some.inj hw
      exact h.quiet (hrule.publishCachedMessage h.accounted h.inRange)
        (kept_publishCachedMessage _)
  | connectivity isConnected =>
      obtain rfl := Option.some.inj hw
      show Inv R Q ⟨_, s.log ++ []⟩
      rw [append_nil]
      exact ⟨h.accounted.same rfl rfl, h.inRange, h.allowed⟩
  | reconnect config =>
      cases kind with
      | transient => cases hw
      | persistent =>
          obtain rfl := Option.some.inj hw
          exact h.reconnect hok

/-- A message is never sent again more often than configured. -/
theorem notMore_run {config : Config} {clientId : Str} {t : Session kind} {ops : List Op}
    (hrun : run step (Session.new config clientId kind) ops = some t) : Allowed NotMore t.log := by
  have hstep : ∀ (s : Session kind) (op : Op) (s' : Session kind), op ∈ ops →
      Inv (fun retry count => count ≤ retry) NotMore s → True → step s op = some s' →
      Inv (fun retry count => count ≤ retry) NotMore s' := by
    intro s op s' _ h _ hs
    exact h.step counter_notMore (Or.inr fun retry count hle => by omega) hs
  exact (invariant_run hstep (inv_new _ _ config clientId) (allSteps_true _ _) hrun).allowed

/-- If no retry is counted without a packet, a message is given up after as many retransmissions as
are configured, and never sent again more often. -/
theorem account_run {config : Config} {clientId : Str} {t : Session kind} {ops : List Op}
    (hok : AllSteps step StepOk (Session.new config clientId kind) ops)
    (hrun : run step (Session.new config clientId kind) ops = some t) :
    Allowed AccountOk t.log :=
  (invariant_run (fun _ _ _ _ h hstep hs => h.step counter_accountOk (Or.inl hstep) hs)
    (inv_new _ _ config clientId) hok hrun).allowed

/-- One retransmission is configured. -/
def onceConfig : Config := { sampleConfig with sessionInflightMaxRetries := 1 }

/-- A message that is sent again once and then given up. -/
def onceOps : List Op :=
  [.connectivity true, .publishMessage (samplePublish false false) .atLeastOnce, .retry 1,
    .retry 2]

theorem account_run_once :
    ∃ t, run step (Session.new onceConfig ['c'] .transient) onceOps = some t ∧
      t.log = [.retransmitted 0 1, .discarded 0 1] ∧ Allowed AccountOk t.log :=
  ⟨_, rfl, by decide, @account_run .transient onceConfig ['c'] _ onceOps (by decide) rfl⟩

/-- The client is lost, the retry is counted, and the message is given up without having been sent
again. -/
theorem not_account_run : ¬∀ (kind : SessionKind) (config : Config) (clientId : Str)
    (t : Session kind) (ops : List Op),
    run step (Session.new config clientId kind) ops = some t → Allowed AccountOk t.log := by
  intro h
  have hallowed := h .persistent onceConfig ['c'] _ [.connectivity true,
    .publishMessage (samplePublish false false) .atLeastOnce, .connectivity false, .retry 1,
    .retry 1] rfl
  have hgiven : (1 : ℤ) ≤ count [] 0 := hallowed [] (.discarded 0 1) [] (by decide)
  exact absurd hgiven (by decide)

end RetryCount

end Stuart
