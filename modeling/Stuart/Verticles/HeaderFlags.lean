/-
The header flags of the packets that a session sends.

DUP should tell a retransmission from the first transmission of a message, and RETAIN a retained
message for a new subscription from any other.  The conversions copy both flags of an inbound
message into the message that is delivered: only a will loses its DUP flag, and a retained message
gets its RETAIN flag.  The wrapper marks what `retry` sends and leaves the flags of all other
packets as they are in the message.  So the flags are right exactly when every message that is
delivered came without them (`lawful_iff`), as long as no message of QoS 0 waits in the queue:
`dequeue` sends such a message twice, and the second packet is not marked.
-/
import Stuart.Sessions.ExactlyOnce
import Stuart.Verticles.Deliveries

namespace Stuart

open List Lib

namespace HeaderFlags

open SessionWrapper Deliveries Delivery

variable {kind : SessionKind}

/-- What is handed to a session: a message that was routed, or a retained one for a new
subscription. -/
inductive Source where
  | routed (origin : Origin)
  | retained (message : MqttRetainMessage)
deriving DecidableEq

def Source.message : Source → MqttMessage
  | .routed origin => origin.message
  | .retained message => message.convert2MqttMessage

def Source.isRetained : Source → Bool
  | .routed _ => false
  | .retained _ => true

/-- The message came without DUP, and without RETAIN if it was routed. -/
def Source.Clean (source : Source) : Prop :=
  source.message.dup = false ∧ source.message.retain = source.isRetained

instance (source : Source) : Decidable source.Clean := inferInstanceAs (Decidable (_ ∧ _))

/-- A wrapper with its history. -/
structure Session (kind : SessionKind) where
  wrapper : SessionWrapper kind
  /-- what was handed to it; the `uid` of a message is its place -/
  sources : List Source
  /-- the packets of the earlier connections -/
  past : List MqttPacket

def Session.sent (s : Session kind) : List MqttPacket := s.past ++ s.wrapper.endpoint.written

def Session.new (config : Config) (clientId : Str) (kind : SessionKind) : Session kind :=
  ⟨start config clientId kind, [], []⟩

def handed : Op → List Source
  | .publishMessage origin _ | .storeMessage origin _ => [.routed origin]
  | .publishRetainMessage retains => retains.map .retained
  | _ => []

/-- The packets of a connection that is over. -/
def finished (w : SessionWrapper kind) : Op → List MqttPacket
  | .reconnect _ => w.endpoint.written
  | _ => []

def step (s : Session kind) (op : Op) : Option (Session kind) :=
  (perform s.wrapper op).map fun w =>
    ⟨w, s.sources ++ handed op, s.past ++ finished s.wrapper op⟩

/-! ### The law and the condition -/

/-- DUP marks every PUBLISH of a message but the first, and RETAIN the retained messages. -/
def FlagsOk (sources : List Source) (before : List MqttPacket) : MqttPacket → Prop
  | .publish _ uid _ _ _ dup retain =>
      (dup = true ↔ uid ∈ onWire before) ∧
        (retain = true ↔ ∃ message, sources[uid]? = some (.retained message))
  | .pubrel _ => True

def Lawful (s : Session kind) : Prop := Allowed (FlagsOk s.sources) s.sent

/-- A message of QoS 0 does not wait behind others. -/
def Unqueued (w : SessionWrapper kind) (qos : MqttQoS) : Prop :=
  qos = .atMostOnce → ¬(w.config.sessionQueueStoreQos0 = true ∧ w.queue.items ≠ [])

/-- Each retained message meets what those before it have left in the queue. -/
def RetainsUnqueued : SessionWrapper kind → List MqttMessage → Prop
  | _, [] => True
  | w, message :: retains =>
      Unqueued w message.qos ∧ RetainsUnqueued (handleRetains w [message]) retains

/-- No message of QoS 0 is put into the queue. -/
def UnqueuedOk (w : SessionWrapper kind) : Op → Prop
  | .publishMessage _ qos => Unqueued w qos
  | .storeMessage origin qos => qos = .atMostOnce →
      origin.message.qos = .atMostOnce ∧ w.config.sessionQueueStoreQos0 = false
  | .publishRetainMessage retains =>
      RetainsUnqueued w (retains.map MqttRetainMessage.convert2MqttMessage)
  | _ => True

/-- The condition on a step: the messages come without the flags. -/
def StepOk (s : Session kind) (op : Op) : Prop :=
  UnqueuedOk s.wrapper op ∧ ∀ source ∈ handed op, source.Clean

instance (w : SessionWrapper kind) (qos : MqttQoS) : Decidable (Unqueued w qos) :=
  inferInstanceAs (Decidable (_ → ¬(_ ∧ _)))

instance decidableRetainsUnqueued :
    ∀ (w : SessionWrapper kind) (retains : List MqttMessage), Decidable (RetainsUnqueued w retains)
  | _, [] => inferInstanceAs (Decidable True)
  | w, message :: retains =>
      have := decidableRetainsUnqueued (handleRetains w [message]) retains
      inferInstanceAs (Decidable (_ ∧ _))

instance decidableUnqueuedOk (w : SessionWrapper kind) : ∀ op : Op, Decidable (UnqueuedOk w op)
  | .publishMessage _ qos => inferInstanceAs (Decidable (Unqueued w qos))
  | .storeMessage _ _ => inferInstanceAs (Decidable (_ → _ ∧ _))
  | .publishRetainMessage retains => inferInstanceAs (Decidable (RetainsUnqueued w (retains.map _)))
  | .receivePuback _ | .receivePubrec _ | .receivePubcomp _ | .publishRelease _ | .retry _
  | .publishCachedMessage | .connectivity _ | .reconnect _ => inferInstanceAs (Decidable True)

instance (s : Session kind) (op : Op) : Decidable (StepOk s op) :=
  inferInstanceAs (Decidable (_ ∧ _))

/-! ### What the code does -/

/-- The flags that are sent: DUP is copied, too, and RETAIN is only copied. -/
def FlagsAre (sources : List Source) (before : List MqttPacket) : MqttPacket → Prop
  | .publish _ uid _ _ _ dup retain => ∃ source, sources[uid]? = some source ∧
      (dup = true ↔ uid ∈ onWire before ∨ source.message.dup = true) ∧
      retain = source.message.retain
  | .pubrel _ => True

/-- A message with the flags of its source. -/
def Copied (sources : List Source) (message : MqttMessage) : Prop :=
  ∃ source, sources[message.uid]? = some source ∧ message.dup = source.message.dup ∧
    message.retain = source.message.retain

/-- A wrapper with the messages `items` that wait: those were not sent, the inflight ones were. -/
structure Flagged (sources : List Source) (past : List MqttPacket) (w : SessionWrapper kind)
    (items : List MqttMessage) : Prop where
  flags : Allowed (FlagsAre sources) (past ++ w.endpoint.written)
  accepted : w.ledger.accepted.length = sources.length
  known : ∀ uid ∈ onWire (past ++ w.endpoint.written), uid < sources.length
  queued : ∀ message ∈ items, message.uid ∉ onWire (past ++ w.endpoint.written) ∧
    Copied sources message ∧ message.qos ≠ .atMostOnce
  nodup : (items.map MqttMessage.uid).Nodup
  stored : ∀ key message, w.inflights.get key = some message →
    message.uid ∈ onWire (past ++ w.endpoint.written) ∧ Copied sources message

/-- A new message, which does not wait behind others if it has QoS 0. -/
structure Ready (sources : List Source) (past : List MqttPacket) (w : SessionWrapper kind)
    (items : List MqttMessage) (message : MqttMessage) : Prop where
  flagged : Flagged sources past w items
  unsent : message.uid ∉ onWire (past ++ w.endpoint.written)
  new : message.uid ∉ items.map MqttMessage.uid
  copied : Copied sources message
  unqueued : message.qos = .atMostOnce →
    ¬(w.config.sessionQueueStoreQos0 = true ∧ items ≠ [])

variable {w w' : SessionWrapper kind} {items items' : List MqttMessage} {message : MqttMessage}
  {sources : List Source} {past : List MqttPacket}

lemma Copied.lt (h : Copied sources message) : message.uid < sources.length := by
  obtain ⟨source, hsource, -⟩ := h
  exact (List.getElem?_eq_some_iff.1 hsource).1

lemma Copied.append (h : Copied sources message) (more : List Source) :
    Copied (sources ++ more) message := by
  have hlt := h.lt
  obtain ⟨source, hsource, hflags⟩ := h
  exact ⟨source, by rw [getElem?_append_left hlt, hsource], hflags⟩

lemma Flagged.same (h : Flagged sources past w items) (hs : Same w w') :
    Flagged sources past w' items := by
  refine ⟨?_, ?_, ?_, ?_, h.nodup, fun key message hget => ?_⟩
  · rw [hs.endpoint]
    exact h.flags
  · rw [hs.accepted]
    exact h.accepted
  · rw [hs.endpoint]
    exact h.known
  · rw [hs.endpoint]
    exact h.queued
  · rw [hs.endpoint]
    rw [hs.inflights] at hget
    exact h.stored key message hget

lemma Flagged.sublist (h : Flagged sources past w items) (hsub : items' <+ items) :
    Flagged sources past w items' :=
  ⟨h.flags, h.accepted, h.known, fun message hmem => h.queued message (hsub.subset hmem),
    h.nodup.sublist (hsub.map _), h.stored⟩

/-- The inflight messages change: each is an old one, or one with the flags and the number of an
old one. -/
lemma Flagged.inflights (h : Flagged sources past w items) (hendpoint : w'.endpoint = w.endpoint)
    (haccepted : w'.ledger.accepted = w.ledger.accepted)
    (hget : ∀ key message, w'.inflights.get key = some message → ∃ key' message',
      w.inflights.get key' = some message' ∧ message.uid = message'.uid ∧
        message.dup = message'.dup ∧ message.retain = message'.retain) :
    Flagged sources past w' items := by
  refine ⟨?_, ?_, ?_, ?_, h.nodup, fun key message hkey => ?_⟩
  · rw [hendpoint]
    exact h.flags
  · rw [haccepted]
    exact h.accepted
  · rw [hendpoint]
    exact h.known
  · rw [hendpoint]
    exact h.queued
  · obtain ⟨key', message', hold, huid, hdup, hretain⟩ := hget key message hkey
    obtain ⟨hwire, source, hsource, hcopied⟩ := h.stored key' message' hold
    rw [hendpoint, huid]
    exact ⟨hwire, source, by rw [huid, hsource], by rw [hdup, hcopied.1], by
      rw [hretain, hcopied.2]⟩

/-- More is handed to the session. -/
lemma Flagged.append (h : Flagged sources past w items) {more : List Source}
    (hendpoint : w'.endpoint = w.endpoint) (hinflights : w'.inflights = w.inflights)
    (haccepted : w'.ledger.accepted.length = (sources ++ more).length) :
    Flagged (sources ++ more) past w' items := by
  refine ⟨?_, haccepted, ?_, ?_, h.nodup, fun key message hget => ?_⟩
  · rw [hendpoint]
    intro before packet after hsplit
    have hold := h.flags before packet after hsplit
    cases packet with
    | pubrel messageId => trivial
    | publish messageId uid topic payload qos dup retain =>
        obtain ⟨source, hsource, hflags⟩ := hold
        have hlt := (List.getElem?_eq_some_iff.1 hsource).1
        exact ⟨source, by rw [getElem?_append_left hlt, hsource], hflags⟩
  · rw [hendpoint, length_append]
    exact fun uid huid => Nat.lt_add_right _ (h.known uid huid)
  · rw [hendpoint]
    intro message hmem
    obtain ⟨hunsent, hcopied, hqos⟩ := h.queued message hmem
    exact ⟨hunsent, hcopied.append more, hqos⟩
  · rw [hinflights] at hget
    rw [hendpoint]
    exact ⟨(h.stored key message hget).1, (h.stored key message hget).2.append more⟩

/-! ### Sending -/

lemma onWire_sent (hc : w.endpoint.isConnected = true) (everPublished : Bool) :
    onWire (past ++ (w.publish message everPublished).2.endpoint.written) =
      onWire (past ++ w.endpoint.written) ++ [message.uid] := by
  rw [onWire_append, onWire_append, onWire_publish, if_pos hc, append_assoc]

/-- A PUBLISH with the flags of its source, marked if it is not the first one. -/
lemma flags_publish (h : Allowed (FlagsAre sources) (past ++ w.endpoint.written))
    (hcopied : Copied sources message) (hc : w.endpoint.isConnected = true) {everPublished : Bool}
    (hever : everPublished = true ↔ message.uid ∈ onWire (past ++ w.endpoint.written)) :
    Allowed (FlagsAre sources) (past ++ (w.publish message everPublished).2.endpoint.written) := by
  obtain ⟨source, hsource, hdup, hretain⟩ := hcopied
  rw [publish_of_connected w message everPublished hc]
  show Allowed _ (past ++ (w.endpoint.written ++ [_]))
  rw [← append_assoc, allowed_concat]
  refine ⟨h, source, hsource, ?_, hretain⟩
  rw [← hever, ← hdup]
  cases everPublished <;> simp

/-- A message is sent that is not among those that wait; it may be stored before. -/
lemma Flagged.publish {w₀ : SessionWrapper kind} (h : Flagged sources past w₀ items)
    (hendpoint : w.endpoint = w₀.endpoint) (haccepted : w.ledger.accepted = w₀.ledger.accepted)
    (hstored : ∀ key other, w.inflights.get key = some other →
      other.uid = message.uid ∧ Copied sources other ∨ ∃ key', w₀.inflights.get key' = some other)
    (hc : w.endpoint.isConnected = true) (hcopied : Copied sources message)
    (hnew : message.uid ∉ items.map MqttMessage.uid) {everPublished : Bool}
    (hever : everPublished = true ↔ message.uid ∈ onWire (past ++ w.endpoint.written)) :
    Flagged sources past (w.publish message everPublished).2 items := by
  have hwire := @onWire_sent kind w message past hc everPublished
  rw [hendpoint] at hwire
  refine ⟨?_, ?_, ?_, ?_, h.nodup, ?_⟩
  · exact flags_publish (hendpoint ▸ h.flags) hcopied hc hever
  · rw [publish_ledger, haccepted]
    exact h.accepted
  · rw [hwire]
    intro uid huid
    rcases mem_append.1 huid with hold | heq
    · exact h.known uid hold
    · rw [mem_singleton.1 heq]
      exact hcopied.lt
  · rw [hwire]
    intro other hmem
    obtain ⟨hunsent, hrest⟩ := h.queued other hmem
    refine ⟨fun huid => ?_, hrest⟩
    rcases mem_append.1 huid with hold | heq
    · exact hunsent hold
    · exact hnew (mem_singleton.1 heq ▸ mem_map_of_mem hmem)
  · rw [hwire, publish_inflights]
    intro key other hget
    rcases hstored key other hget with ⟨huid, hother⟩ | ⟨key', hold⟩
    · exact ⟨mem_append_right _ (mem_singleton.2 huid), hother⟩
    · exact ⟨mem_append_left _ (h.stored key' other hold).1, (h.stored key' other hold).2⟩

/-- The message is stored under the next packet id, and sent. -/
lemma Flagged.sent (h : Flagged sources past w (message :: items))
    (hc : w.endpoint.isConnected = true) : Flagged sources past (w.sent message) items := by
  obtain ⟨hunsent, hcopied, -⟩ := h.queued message mem_cons_self
  have hnew : message.uid ∉ items.map MqttMessage.uid := (nodup_cons.1 h.nodup).1
  apply (h.sublist (sublist_cons_self _ _)).publish
  · rfl
  · rfl
  · intro key other hget
    rcases Inflights.get_put hget with ⟨-, rfl⟩ | hold
    · exact Or.inl ⟨rfl, hcopied⟩
    · exact Or.inr ⟨key, hold⟩
  · exact hc
  · exact hcopied
  · exact hnew
  · exact iff_of_false Bool.false_ne_true hunsent

lemma methodRule (sources : List Source) (past : List MqttPacket) :
    MethodRule (@Flagged kind sources past) (Ready sources past) where
  same := Flagged.same
  sublist := Flagged.sublist
  remove := fun messageId h => h.inflights rfl rfl fun key message hget =>
    ⟨key, message, Inflights.get_remove hget, rfl, rfl, rfl⟩
  received := by
    intro w items messageId message h hmessage
    refine h.inflights rfl rfl fun key other hget => ?_
    rcases Inflights.get_put hget with ⟨-, rfl⟩ | hold
    · exact ⟨messageId, message, hmessage, rfl, rfl, rfl⟩
    · exact ⟨key, other, hold, rfl, rfl, rfl⟩
  sent := fun h hc _ _ => h.sent hc
  sentTwice := fun h _ _ hq => absurd hq (h.queued _ mem_cons_self).2.2
  inv := Ready.flagged
  wait := by
    intro w items message h hq
    refine ⟨h.flagged.flags, h.flagged.accepted, h.flagged.known, fun other hmem => ?_, ?_,
      h.flagged.stored⟩
    · rcases mem_append.1 hmem with hold | heq
      · exact h.flagged.queued other hold
      · rw [mem_singleton.1 heq]
        exact ⟨h.unsent, h.copied, fun hzero => h.unqueued hzero (hq hzero)⟩
    · rw [map_append]
      refine nodup_append.2 ⟨h.flagged.nodup, nodup_singleton _, fun uid huid uid' huid' heq => ?_⟩
      exact h.new (mem_singleton.1 huid' ▸ heq ▸ huid)
  direct := fun h hc hq => h.flagged.publish rfl rfl (fun key other hget => Or.inr ⟨key, hget⟩) hc
    h.copied h.new (iff_of_false Bool.false_ne_true h.unsent)

/-- A message that is handed to the session is a new one. -/
lemma Flagged.ready (h : Flagged sources past w items) (source : Source) {qos : MqttQoS}
    (hunqueued : qos = .atMostOnce → ¬(w.config.sessionQueueStoreQos0 = true ∧ items ≠ [])) :
    Ready (sources ++ [source]) past { w with ledger := w.ledger.accept qos } items
      (w.copyMqttMessage source.message qos) := by
  have huid : (w.copyMqttMessage source.message qos).uid = sources.length := h.accepted
  refine ⟨h.append rfl rfl ?_, fun hmem => ?_, fun hmem => ?_, ?_, hunqueued⟩
  · show (w.ledger.accepted ++ [qos]).length = _
    rw [length_append, length_append, h.accepted]
    rfl
  · have := h.known _ hmem
    omega
  · obtain ⟨other, hother, heq⟩ := mem_map.1 hmem
    have := (h.queued other hother).2.1.lt
    omega
  · exact ⟨source, by rw [huid, getElem?_concat_length], rfl, rfl⟩

/-! ### Retries -/

/-- A PUBREL has no flags. -/
lemma Flagged.publishRelease (h : Flagged sources past w items) (messageId : ℤ) :
    Flagged sources past (w.publishRelease messageId).2 items := by
  by_cases hc : w.endpoint.isConnected = true
  · have hwritten : past ++ (w.publishRelease messageId).2.endpoint.written =
        (past ++ w.endpoint.written) ++ [.pubrel messageId] := by
      rw [publishRelease_of_connected w messageId hc, append_assoc]
    have hwire : onWire (past ++ (w.publishRelease messageId).2.endpoint.written) =
        onWire (past ++ w.endpoint.written) := by
      rw [hwritten, onWire_append]
      exact append_nil _
    refine ⟨?_, ?_, hwire ▸ h.known, hwire ▸ h.queued, h.nodup, fun key message hget => ?_⟩
    · rw [hwritten, allowed_concat]
      exact ⟨h.flags, trivial⟩
    · rw [publishRelease_ledger]
      exact h.accepted
    · rw [publishRelease_inflights] at hget
      rw [hwire]
      exact h.stored key message hget
  · rw [publishRelease_of_not_connected w messageId (by simpa using hc)]
    exact h

/-- A retry marks what it sends. -/
lemma Flagged.retryInflight (h : Flagged sources past w items) {messageId : ℤ}
    (hget : w.inflights.get messageId = some message) :
    Flagged sources past (w.retryInflight message).2 items := by
  obtain ⟨hwire, hcopied⟩ := h.stored messageId message hget
  have hnew : message.uid ∉ items.map MqttMessage.uid := by
    intro hmem
    obtain ⟨other, hother, heq⟩ := mem_map.1 hmem
    exact (h.queued other hother).1 (heq ▸ hwire)
  -- only the retry is counted
  have hcounted : Flagged sources past
      ((w.putInflight message.messageId
        { message with retry := message.retry + 1 }).saveInflightTimeout message.messageId)
      items := by
    refine h.inflights rfl rfl fun key other hother => ?_
    rcases Inflights.get_put hother with ⟨-, rfl⟩ | hold
    · exact ⟨messageId, message, hget, rfl, rfl, rfl⟩
    · exact ⟨key, other, hold, rfl, rfl, rfl⟩
  rw [SessionWrapper.retryInflight]
  dsimp only
  split_ifs with hstay hpos hkind
  · exact hcounted.publishRelease _
  · have hc : w.endpoint.isConnected = true := by
      by_contra hc
      rw [nextMessageId_of_not_connected (by simpa using hc)] at hpos
      exact absurd hpos (by decide)
    apply h.publish
    · rfl
    · rfl
    · intro key other hother
      rcases Inflights.get_put hother with ⟨-, rfl⟩ | hold
      · exact Or.inl ⟨rfl, hcopied⟩
      · exact Or.inr ⟨key, Inflights.get_remove hold⟩
    · exact hc
    · exact hcopied
    · exact hnew
    · exact iff_of_true rfl hwire
  · exact hcounted
  · exact h

lemma Flagged.retry (h : Flagged sources past w w.queue.items) (hr : w.endpoint.InRange)
    (messageId : ℤ) : Flagged sources past (w.retry messageId) (w.retry messageId).queue.items := by
  simp only [SessionWrapper.retry]
  cases hget : w.inflights.get messageId with
  | none => exact h
  | some message =>
      dsimp only
      split_ifs
      · exact (methodRule sources past).giveUp h hr messageId message
      · rw [retryInflight_queue]
        exact h.retryInflight hget

lemma Flagged.retryInflights {w : SessionWrapper .persistent} (h : Flagged sources past w items) :
    Flagged sources past (PersistentSessionWrapper.retryInflights w) items :=
  @PersistentSessionWrapper.retryInflights_induction (fun w => Flagged sources past w items)
    (fun _ _ _ hflagged hget => hflagged.retryInflight hget) w h

/-- The wrapper of the next connection has sent nothing yet. -/
lemma Flagged.reconnected {w : SessionWrapper .persistent}
    (h : Flagged sources past w w.queue.items) (config : Option Config) :
    Flagged sources (past ++ w.endpoint.written) (Deliveries.reconnected w config)
      (Deliveries.reconnected w config).queue.items := by
  have hwritten : (Deliveries.reconnected w config).endpoint.written = [] := by
    cases config <;> rfl
  have hledger : (Deliveries.reconnected w config).ledger = w.ledger := by
    cases config <;> rfl
  refine Flagged.sublist ?_ (queue_reconnected_sublist w config)
  refine ⟨?_, ?_, ?_, ?_, h.nodup, fun key message hget => ?_⟩
  · rw [hwritten, append_nil]
    exact h.flags
  · rw [hledger]
    exact h.accepted
  · rw [hwritten, append_nil]
    exact h.known
  · rw [hwritten, append_nil]
    exact h.queued
  · rw [hwritten, append_nil]
    rw [get_reconnected] at hget
    exact h.stored key message hget

/-! ### Runs -/

/-- The invariant of a run. -/
structure Inv (s : Session kind) : Prop where
  flagged : Flagged s.sources s.past s.wrapper s.wrapper.queue.items
  inRange : s.wrapper.endpoint.InRange

/-- The loop of `publishRetainMessage`, by induction on the retained messages. -/
lemma Flagged.handleRetains (h : Flagged sources past w w.queue.items) (hr : w.endpoint.InRange)
    {retains : List MqttRetainMessage}
    (hok : RetainsUnqueued w (retains.map MqttRetainMessage.convert2MqttMessage)) :
    Flagged (sources ++ retains.map .retained) past
        (handleRetains w (retains.map MqttRetainMessage.convert2MqttMessage))
        (handleRetains w (retains.map MqttRetainMessage.convert2MqttMessage)).queue.items ∧
      (handleRetains w (retains.map MqttRetainMessage.convert2MqttMessage)).endpoint.InRange := by
  induction retains generalizing w sources with
  | nil =>
      rw [map_nil, append_nil]
      exact ⟨h, hr⟩
  | cons retain retains ih =>
      obtain ⟨hunqueued, hrest⟩ := hok
      have hready := h.ready (.retained retain) hunqueued
      have hflagged := (methodRule _ past).handleMessage hready hr
      have hkept := kept_handleMessage
        { w with ledger := w.ledger.accept retain.convert2MqttMessage.qos }
        (w.copyMqttMessage retain.convert2MqttMessage retain.convert2MqttMessage.qos)
      have hrun := ih hflagged (hkept.inRange hr) hrest
      rw [append_assoc] at hrun
      exact hrun

lemma inv_new (config : Config) (clientId : Str) :
    Inv (Session.new config clientId kind) := by
  obtain ⟨hr, hwritten⟩ := endpoint_start config clientId kind
  refine ⟨⟨?_, ?_, ?_, ?_, ?_, fun key message hget => ?_⟩, hr⟩
  · show Allowed _ ([] ++ (start config clientId kind).endpoint.written)
    rw [hwritten]
    exact allowed_nil
  · exact congrArg List.length (accepted_start config clientId kind)
  · show ∀ uid ∈ onWire ([] ++ (start config clientId kind).endpoint.written), _
    rw [hwritten]
    exact nofun
  · show ∀ message ∈ (start config clientId kind).queue.items, _
    rw [queue_start]
    exact nofun
  · show ((start config clientId kind).queue.items.map MqttMessage.uid).Nodup
    rw [queue_start]
    exact nodup_nil
  · exact absurd ((get_start config clientId kind key).symm.trans hget) (by simp)

/-- A step that hands nothing to the session. -/
lemma Inv.quiet {s : Session kind} (hflagged : Flagged s.sources s.past w w.queue.items)
    (hr : w.endpoint.InRange) : Inv ⟨w, s.sources ++ [], s.past ++ []⟩ := by
  rw [append_nil, append_nil]
  exact ⟨hflagged, hr⟩

/-- One step, by cases on what happens. -/
lemma Inv.step {s s' : Session kind} {op : Op} (h : Inv s) (hok : UnqueuedOk s.wrapper op)
    (hs : HeaderFlags.step s op = some s') : Inv s' := by
  obtain ⟨w, hw, rfl⟩ := Option.map_eq_some_iff.1 hs
  have hrule := @methodRule kind s.sources s.past
  cases op with
  | publishMessage origin qos =>
      obtain rfl := Option.some.inj hw
      have hready := h.flagged.ready (.routed origin) hok
      refine ⟨?_, (kept_publishMessage _ _ _).inRange h.inRange⟩
      show Flagged _ (s.past ++ []) _ _
      rw [append_nil]
      exact (methodRule _ s.past).publishMessage h.inRange hready
  | publishRetainMessage retains =>
      obtain rfl := Option.some.inj hw
      obtain ⟨hflagged, hr⟩ := h.flagged.handleRetains h.inRange hok
      rw [← append_nil s.past] at hflagged
      rcases publishRetainMessage_eq s.wrapper (retains.map MqttRetainMessage.convert2MqttMessage)
        with heq | heq
      · rw [heq]
        exact ⟨hflagged, hr⟩
      · rw [heq]
        exact ⟨(methodRule _ _).publishCachedMessage hflagged hr,
          (kept_publishCachedMessage _).inRange hr⟩
  | storeMessage origin qos =>
      cases kind with
      | transient => cases hw
      | persistent =>
          have hready := h.flagged.ready (.routed origin) fun (hq : qos = _) hstore =>
            absurd hstore.1 (by simp [(hok hq).2])
          obtain ⟨hflagged, hend⟩ := kept_storeMessage (methodRule _ s.past) hready
            (fun hstores => (methodRule _ s.past).wait hready fun hq =>
              absurd (hstores (hok hq).1) (by simp [(hok hq).2])) hw
          refine ⟨?_, by rw [hend]; exact h.inRange⟩
          show Flagged _ (s.past ++ []) _ _
          rw [append_nil]
          exact hflagged
  | receivePuback messageId =>
      obtain rfl := Option.some.inj hw
      exact Inv.quiet (hrule.receiveFinal h.flagged h.inRange messageId)
        ((kept_receiveFinal _ _).inRange h.inRange)
  | receivePubrec messageId =>
      obtain rfl := Option.some.inj hw
      exact Inv.quiet (hrule.receivePubrec h.flagged messageId)
        ((kept_receivePubrec _ _).inRange h.inRange)
  | receivePubcomp messageId =>
      obtain rfl := Option.some.inj hw
      exact Inv.quiet (hrule.receiveFinal h.flagged h.inRange messageId)
        ((kept_receiveFinal _ _).inRange h.inRange)
  | publishRelease messageId =>
      obtain rfl := Option.some.inj hw
      refine Inv.quiet ?_ ((kept_publishRelease _ _).inRange h.inRange)
      rw [publishRelease_queue]
      exact h.flagged.publishRelease messageId
  | retry messageId =>
      obtain rfl := Option.some.inj hw
      exact Inv.quiet (h.flagged.retry h.inRange messageId)
        ((kept_retry _ _).inRange h.inRange)
  | publishCachedMessage =>
      obtain rfl := Option.some.inj hw
      exact Inv.quiet (hrule.publishCachedMessage h.flagged h.inRange)
        ((kept_publishCachedMessage _).inRange h.inRange)
  | connectivity isConnected =>
      obtain rfl := Option.some.inj hw
      exact Inv.quiet ⟨h.flagged.flags, h.flagged.accepted, h.flagged.known, h.flagged.queued,
        h.flagged.nodup, h.flagged.stored⟩ h.inRange
  | reconnect config =>
      cases kind with
      | transient => cases hw
      | persistent =>
          obtain rfl := Option.some.inj hw
          have hr := (PersistentSessionWrapper.kept_retryInflights (reconnected s.wrapper config)
            ).inRange (inRange_reconnected s.wrapper config)
          have hretried := (h.flagged.reconnected config).retryInflights
          rw [← PersistentSessionWrapper.retryInflights_queue] at hretried
          show Inv ⟨_, s.sources ++ [], s.past ++ s.wrapper.endpoint.written⟩
          rw [append_nil]
          exact ⟨(methodRule _ _).publishCachedMessage hretried hr,
            (kept_publishCachedMessage _).inRange hr⟩

/-- The first packet of a message. -/
lemma exists_first {packets : List MqttPacket} {uid : ℕ} (h : uid ∈ onWire packets) :
    ∃ before messageId topic payload qos dup retain after,
      packets = before ++ .publish messageId uid topic payload qos dup retain :: after ∧
        uid ∉ onWire before := by
  induction packets with
  | nil => exact absurd h not_mem_nil
  | cons packet packets ih =>
      by_cases hfirst : uid ∈ onWire [packet]
      · cases packet with
        | pubrel messageId => exact absurd hfirst not_mem_nil
        | publish messageId uid' topic payload qos dup retain =>
            obtain rfl : uid = uid' := mem_singleton.1 hfirst
            exact ⟨[], messageId, topic, payload, qos, dup, retain, packets, rfl, not_mem_nil⟩
      · have hrest : uid ∈ onWire packets := by
          rw [show packet :: packets = [packet] ++ packets from rfl, onWire_append] at h
          exact (mem_append.1 h).resolve_left hfirst
        obtain ⟨before, messageId, topic, payload, qos, dup, retain, after, hsplit, hnot⟩ :=
          ih hrest
        refine ⟨packet :: before, messageId, topic, payload, qos, dup, retain, after, ?_, ?_⟩
        · rw [hsplit]
          rfl
        · rw [show packet :: before = [packet] ++ before from rfl, onWire_append, mem_append]
          exact not_or.2 ⟨hfirst, hnot⟩

lemma Source.isRetained_iff (source : Source) :
    source.isRetained = true ↔ ∃ message, source = .retained message := by
  cases source with
  | routed origin => simp [isRetained]
  | retained message => simp [isRetained]

/-- The flags are right exactly when every message that was sent came without them. -/
theorem Inv.lawful_iff {s : Session kind} (h : Inv s) :
    Lawful s ↔ ∀ uid ∈ onWire s.sent, ∀ source ∈ s.sources[uid]?, source.Clean := by
  have hflags : Allowed (FlagsAre s.sources) s.sent := h.flagged.flags
  constructor
  · intro hlawful uid huid source hsource
    obtain ⟨before, messageId, topic, payload, qos, dup, retain, after, hsplit, hnot⟩ :=
      exists_first huid
    obtain ⟨hdup, hretain⟩ := hlawful before _ after hsplit
    obtain ⟨source', hsource', hdup', hretain'⟩ := hflags before _ after hsplit
    obtain rfl : source = source' := Option.some.inj (hsource.symm.trans hsource')
    refine ⟨?_, ?_⟩
    · by_contra hcopied
      exact hnot (hdup.1 (hdup'.2 (Or.inr (by simpa using hcopied))))
    · rw [hsource'] at hretain
      rw [← hretain', Bool.eq_iff_iff, hretain, source.isRetained_iff]
      simp
  · intro hclean before packet after hsplit
    cases packet with
    | pubrel messageId => trivial
    | publish messageId uid topic payload qos dup retain =>
        obtain ⟨source, hsource, hdup, hretain⟩ := hflags before _ after hsplit
        have huid : uid ∈ onWire s.sent := by
          rw [hsplit, onWire_append]
          exact mem_append_right _ mem_cons_self
        obtain ⟨hnodup, hsame⟩ := hclean uid huid source hsource
        refine ⟨?_, ?_⟩
        · rw [hdup, hnodup]
          simp
        · rw [hretain, hsame, hsource, source.isRetained_iff]
          simp

/-- The flags are right in every run in which the messages come without them and no message of
QoS 0 is put into the queue. -/
theorem lawful_run {config : Config} {clientId : Str} {t : Session kind} {ops : List Op}
    (hok : AllSteps step StepOk (Session.new config clientId kind) ops)
    (hrun : run step (Session.new config clientId kind) ops = some t) : Lawful t := by
  have hinv : Inv t ∧ ∀ source ∈ t.sources, source.Clean := by
    refine @invariant_run _ _ step StepOk (fun s => Inv s ∧ ∀ source ∈ s.sources, source.Clean)
      _ _ _ ?_ ⟨inv_new config clientId, nofun⟩ hok hrun
    rintro s op s' - ⟨hs, hclean⟩ ⟨hunqueued, hhanded⟩ hstep
    refine ⟨hs.step hunqueued hstep, ?_⟩
    obtain ⟨w, -, rfl⟩ := Option.map_eq_some_iff.1 hstep
    intro source hmem
    rcases mem_append.1 hmem with hold | hnew
    · exact hclean source hold
    · exact hhanded source hnew
  exact hinv.1.lawful_iff.2 fun uid _ source hsource =>
    hinv.2 source (List.mem_of_getElem? hsource)

/-- A message and its retransmission, and two retained messages, of QoS 0 and QoS 1. -/
def sampleOps : List Op :=
  [.connectivity true, .publishMessage (samplePublish false false) .atLeastOnce, .retry 1,
    .publishRetainMessage [⟨['t'], [1], 0, false⟩, ⟨['u'], [2], 1, false⟩]]

theorem lawful_run_retry :
    ∃ t, run step (Session.new ⟨true, 10, 10, 3, 10⟩ ['c'] .transient) sampleOps = some t ∧
      onWire t.sent = [0, 0, 1, 2] ∧ Lawful t :=
  ⟨_, rfl, by decide, @lawful_run .transient ⟨true, 10, 10, 3, 10⟩ ['c'] _ sampleOps (by decide)
    rfl⟩

/-- A PUBLISH with both flags set is passed on with them. -/
theorem not_lawful_run : ¬∀ (kind : SessionKind) (config : Config) (clientId : Str)
    (t : Session kind) (ops : List Op),
    run step (Session.new config clientId kind) ops = some t → Lawful t := by
  intro h
  have hlawful := h .transient sampleConfig ['c'] _
    [.connectivity true, .publishMessage (samplePublish true true) .atLeastOnce] rfl
  obtain ⟨hdup, -⟩ := hlawful [] _ [] rfl
  exact absurd (hdup.1 rfl) not_mem_nil

end HeaderFlags

end Stuart
