/-
The flags of `dequeue`, when the calls that it makes may throw.

`dequeue` takes `queueCas` for the whole loop and `inflightCas` for the second half of each round.
The release of `inflightCas` stands in a `finally`, the one of `queueCas` after the loop.  So an
exception that leaves the loop leaves `queueCas` behind, and then no `dequeue` of the wrapper takes
a message again.  Only the `IllegalStateException` of `endpoint.publish` is caught.  The flags are
released iff no other call throws (`releases_iff`).
-/
import Stuart.Lib.Throwing
import Stuart.Sessions.SessionWrapper

namespace Stuart

open List Lib Throwing

/-- What a call throws. -/
inductive CallException where
  /-- an `IllegalStateException` -/
  | illegalState
  | other
deriving DecidableEq

/-- The calls of `dequeue` to the endpoint, the queue, the inflight messages and the timers. -/
inductive Callee where
  | isConnected
  | lastMessageId
  | publish
  | isEmpty
  | poll
  | queueSize
  | isFull
  | inflightsSize
  | putInflight
  | putTimeout
deriving DecidableEq

/-- A call that throws, and whether it has done its work before. -/
structure Fault where
  thrown : CallException
  isDone : Bool
deriving DecidableEq

/-- Which calls throw, by their number, and whether the metrics are enabled. -/
structure Setting where
  faults : ℕ → Option Fault
  isEnabled : Bool

/-- No call throws. -/
def Setting.Calm (e : Setting) : Prop := ∀ n, e.faults n = none

/-- A wrapper with its flags, and the calls that were made. -/
structure FlaggedWrapper (kind : SessionKind) where
  wrapper : SessionWrapper kind
  queueCas : Bool
  inflightCas : Bool
  made : List Callee

/-- A method of a wrapper. -/
abbrev Method (kind : SessionKind) (α : Type) := Throwing (FlaggedWrapper kind) CallException α

namespace FlaggedWrapper

variable {kind : SessionKind} {α : Type} (e : Setting)

/-! ### The calls -/

/-- A call; `work` is `none` where the callee itself throws. -/
def call (callee : Callee) (work : SessionWrapper kind → Option (α × SessionWrapper kind)) :
    Method kind α := fun s =>
  match e.faults s.made.length with
  | some fault =>
      (.thrown fault.thrown, { s with
        wrapper := if fault.isDone then ((work s.wrapper).map Prod.snd).getD s.wrapper
          else s.wrapper
        made := s.made ++ [callee] })
  | none =>
      match work s.wrapper with
      | some (a, w) => (.returned a, { s with wrapper := w, made := s.made ++ [callee] })
      | none => (.thrown .illegalState, { s with made := s.made ++ [callee] })

/-- A call that only reads. -/
def ask (callee : Callee) (value : SessionWrapper kind → α) : Method kind α :=
  call e callee fun w => some (value w, w)

/-- A call that returns nothing. -/
def act (callee : Callee) (f : SessionWrapper kind → SessionWrapper kind) : Method kind Unit :=
  call e callee fun w => some ((), f w)

def isConnected : Method kind Bool := ask e .isConnected fun w => w.endpoint.isConnected

def lastMessageId : Method kind ℤ := ask e .lastMessageId fun w => w.endpoint.lastMessageId

def isInflightFull : {kind : SessionKind} → Method kind Bool
  | .transient => do
      let capacity ← look fun s => s.wrapper.config.sessionInflightMaxCapacity
      if capacity > 0 then
        let size ← ask e .inflightsSize fun w => ((PlainMap.values w.inflights).length : ℤ)
        pure (decide (size ≥ capacity))
      else pure false
  | .persistent => ask e .isFull fun w => w.isInflightFull

/-- `queue.poll()`. -/
def poll : Method kind (Option MqttMessage) :=
  call e .poll fun w =>
    match w.queue.items with
    | [] => some (none, w)
    | message :: rest => some (some message, w.setQueue rest)

def recordQueueSize : Method kind Unit :=
  if e.isEnabled then act e .queueSize id else pure ()

def recordInflightSize : Method kind Unit :=
  if e.isEnabled then act e .inflightsSize id else pure ()

def putInflight (messageId : ℤ) (message : MqttMessage) : Method kind Unit :=
  act e .putInflight fun w => w.putInflight messageId message

def saveInflightTimeout (messageId : ℤ) : Method kind Unit :=
  act e .putTimeout fun w => w.saveInflightTimeout messageId

def nextMessageId : Method kind ℤ := do
  if !(← isConnected e) then pure (-1)
  else
    let current ← lastMessageId e
    pure (if current % MsgConst.MAX_MESSAGE_ID ≠ 0 then current + 1 else 1)

/-- `publish(message, false)`. -/
def publish (message : MqttMessage) : Method kind ℤ := do
  if !(← isConnected e) then pure MsgConst.PUBLISH_ERROR
  else
    let sent ← catching
      (do
        call e .publish fun w => (w.endpoint.publish message.uid message.topic message.payload
          message.qos message.dup message.retain).map fun endpoint =>
            ((), { w with endpoint := endpoint })
        pure true)
      fun x => if x = .illegalState then some false else none
    if !sent then pure MsgConst.PUBLISH_ERROR
    else if message.qos = .atMostOnce then pure 0
    else lastMessageId e

/-! ### `dequeue` -/

/-- The check that a round makes twice. -/
def mustStop : Method kind Bool := do
  if !(← isConnected e) then pure true
  else if ← ask e .isEmpty fun w => w.queue.items.isEmpty then pure true
  else isInflightFull e

/-- The second branch for a polled message; the result tells whether the loop goes on. -/
def storePolled : {kind : SessionKind} → MqttMessage → Method kind Bool
  | .persistent, message => do
      let messageId ← nextMessageId e
      let message := { message with messageId := messageId }
      putInflight e messageId message
      recordInflightSize e
      if messageId > 0 then
        saveInflightTimeout e messageId
        let _ ← publish e message
        pure true
      else pure false
  | .transient, message => do
      let messageId ← nextMessageId e
      if messageId > 0 then
        let message := { message with messageId := messageId }
        putInflight e messageId message
        saveInflightTimeout e messageId
        recordInflightSize e
        let _ ← publish e message
        pure true
      else pure false

/-- What a round does with a polled message: a message of QoS 0 that was sent goes on to the second
branch as well. -/
def sendPolled (message : MqttMessage) : Method kind Bool :=
  if message.qos = .atMostOnce then do
    let result ← publish e message
    if result ≠ 0 then pure false else storePolled e message
  else storePolled e message

/-- It goes round until the flag is free. -/
def takeInflightCas : Method kind Unit := fun s =>
  if s.inflightCas then (.waiting, s) else (.returned (), { s with inflightCas := true })

def releaseInflightCas (s : FlaggedWrapper kind) : FlaggedWrapper kind :=
  { s with inflightCas := false }

def releaseQueueCas (s : FlaggedWrapper kind) : FlaggedWrapper kind := { s with queueCas := false }

/-- The part of a round that holds `inflightCas`. -/
def lockedRound : Method kind Bool := do
  if ← mustStop e then pure false
  else
    match ← poll e with
    | none => pure false
    | some message =>
        recordQueueSize e
        sendPolled e message

/-- A round of the loop. -/
def round : Method kind Bool := do
  if ← mustStop e then pure false
  else
    takeInflightCas
    withFinally (lockedRound e) releaseInflightCas

/-- Every round that is not the last one takes a message from the queue. -/
def dequeue : Method kind Unit := fun s =>
  if s.queueCas then (.returned (), s)
  else
    (do
      rounds (round e) (s.wrapper.queue.items.length + 1)
      change releaseQueueCas) { s with queueCas := true }

def publishCachedMessage : Method kind Unit := dequeue e

/-- No call that was made throws, but for an `endpoint.publish` with an `IllegalStateException`. -/
def Quiet (made : List Callee) : Prop :=
  ∀ n callee, made[n]? = some callee → ∀ fault ∈ e.faults n,
    callee = .publish ∧ fault.thrown = .illegalState

/-- `publishCachedMessage` finds the endpoint connected, something in the queue and room in the
window. -/
def CanSend (w : SessionWrapper kind) : Prop :=
  w.endpoint.isConnected = true ∧ w.queue.items ≠ [] ∧ w.isInflightFull = false

/-- The flags are as before: those that were taken are 0 again.  So a later `publishCachedMessage`
takes a message. -/
structure Releases (s s' : FlaggedWrapper kind) : Prop where
  queueCas : s'.queueCas = s.queueCas
  inflightCas : s'.inflightCas = s.inflightCas
  wakes : s.queueCas = false → s.inflightCas = false → ∀ (w : SessionWrapper kind) (e : Setting),
    CanSend w → e.Calm →
      (publishCachedMessage e ⟨w, s'.queueCas, s'.inflightCas, []⟩).1 = .returned () ∧
        (publishCachedMessage e ⟨w, s'.queueCas, s'.inflightCas, []⟩).2.wrapper.queue.items <:+
          w.queue.items.tail

/-! ### Where the calls throw -/

/-- The flags, a bound for the queue, and no call that has thrown. -/
def Tidy (queueCas inflightCas : Bool) (n : ℕ) (s : FlaggedWrapper kind) : Prop :=
  s.queueCas = queueCas ∧ s.inflightCas = inflightCas ∧ s.wrapper.queue.items.length ≤ n ∧
    Quiet e s.made

/-- The flags, and a call that has thrown. -/
def Loud (queueCas inflightCas : Bool) (s : FlaggedWrapper kind) : Prop :=
  s.queueCas = queueCas ∧ s.inflightCas = inflightCas ∧ ¬Quiet e s.made

/-- The loop goes on with fewer messages in the queue. -/
def Again (queueCas inflightCas : Bool) (n : ℕ) (again : Bool) (s : FlaggedWrapper kind) : Prop :=
  if again then ∃ m < n, Tidy e queueCas inflightCas m s else Tidy e queueCas inflightCas n s

/-- A part of the method that leaves the flags, puts nothing into the queue, does not wait, and
throws only if one of its calls does. -/
def Careful (p : Method kind α) : Prop :=
  ∀ (queueCas inflightCas : Bool) (n : ℕ) (W : FlaggedWrapper kind → Prop),
    Triple (Tidy e queueCas inflightCas n) p (fun _ => Tidy e queueCas inflightCas n)
      (fun _ => Loud e queueCas inflightCas) W

variable {e} {β : Type}

lemma quiet_concat {made : List Callee} {callee : Callee} :
    Quiet e (made ++ [callee]) ↔ Quiet e made ∧ ∀ fault ∈ e.faults made.length,
      callee = .publish ∧ fault.thrown = .illegalState := by
  constructor
  · intro h
    refine ⟨fun n callee' hget => h n callee' ?_, fun fault => h made.length callee ?_ fault⟩
    · rw [getElem?_append_left (List.getElem?_eq_some_iff.1 hget).1]
      exact hget
    · rw [getElem?_append_right (le_refl _), Nat.sub_self]
      rfl
  · rintro ⟨hmade, hlast⟩ n callee' hget
    rcases Nat.lt_or_ge n made.length with hlt | hge
    · rw [getElem?_append_left hlt] at hget
      exact hmade n callee' hget
    · obtain rfl : n = made.length := by
        have hlength := (List.getElem?_eq_some_iff.1 hget).1
        rw [length_append, length_singleton] at hlength
        omega
      rw [getElem?_append_right (le_refl _), Nat.sub_self] at hget
      obtain rfl := Option.some.inj hget
      exact hlast

/-- The work of a call leaves the queue within its bound, and takes a message out of it where `T`
holds of the result. -/
def Bounds (work : SessionWrapper kind → Option (α × SessionWrapper kind)) (T : α → Prop) : Prop :=
  ∀ w a w', work w = some (a, w') → w'.queue.items.length ≤ w.queue.items.length ∧
    (T a → w'.queue.items.length + 1 ≤ w.queue.items.length)

/-- What a call leaves; if it throws, the setting says so, or the callee throws by itself. -/
lemma triple_call {work : SessionWrapper kind → Option (α × SessionWrapper kind)} {T : α → Prop}
    (hwork : Bounds work T) (callee : Callee) (queueCas inflightCas : Bool) (n : ℕ)
    (W : FlaggedWrapper kind → Prop) :
    Triple (Tidy e queueCas inflightCas n) (call e callee work)
      (fun a s => Tidy e queueCas inflightCas n s ∧ (T a → s.wrapper.queue.items.length + 1 ≤ n))
      (fun x s => s.queueCas = queueCas ∧ s.inflightCas = inflightCas ∧
        s.wrapper.queue.items.length ≤ n ∧ ∃ made, Quiet e made ∧ s.made = made ++ [callee] ∧
          ((∃ isDone, e.faults made.length = some ⟨x, isDone⟩) ∨
            e.faults made.length = none ∧ x = .illegalState ∧ ∃ w, work w = none)) W := by
  rintro s ⟨hq, hi, hn, hquiet⟩
  simp only [call]
  cases hfault : e.faults s.made.length with
  | some fault =>
      refine ⟨hq, hi, ?_, s.made, hquiet, rfl, Or.inl ⟨fault.isDone, hfault⟩⟩
      dsimp only
      split_ifs
      · cases hresult : work s.wrapper with
        | none => exact hn
        | some result => exact le_trans (hwork _ _ _ hresult).1 hn
      · exact hn
  | none =>
      dsimp only
      cases hresult : work s.wrapper with
      | none =>
          exact ⟨hq, hi, hn, s.made, hquiet, rfl, Or.inr ⟨hfault, rfl, s.wrapper, hresult⟩⟩
      | some result =>
          obtain ⟨hle, htake⟩ := hwork _ _ _ hresult
          exact ⟨⟨hq, hi, le_trans hle hn, quiet_concat.2 ⟨hquiet, by simp [hfault]⟩⟩,
            fun hT => le_trans (htake hT) hn⟩

/-- A call other than `endpoint.publish` throws only by the setting, and that is not quiet. -/
lemma triple_call_loud {callee : Callee} (hcallee : callee ≠ .publish)
    {work : SessionWrapper kind → Option (α × SessionWrapper kind)} {T : α → Prop}
    (hwork : Bounds work T) (htotal : ∀ w, work w ≠ none) (queueCas inflightCas : Bool) (n : ℕ)
    (W : FlaggedWrapper kind → Prop) :
    Triple (Tidy e queueCas inflightCas n) (call e callee work)
      (fun a s => Tidy e queueCas inflightCas n s ∧ (T a → s.wrapper.queue.items.length + 1 ≤ n))
      (fun _ => Loud e queueCas inflightCas) W := by
  refine (triple_call hwork callee queueCas inflightCas n W).weaken (fun s hs => hs)
    (fun a s hs => hs) ?_
  rintro x s ⟨hq, hi, -, made, -, hmade, ⟨isDone, hfault⟩ | ⟨-, -, w, hnone⟩⟩
  · refine ⟨hq, hi, ?_⟩
    rw [hmade, quiet_concat]
    rintro ⟨-, hlast⟩
    exact hcallee (hlast _ hfault).1
  · exact absurd hnone (htotal w)

lemma careful_call {callee : Callee} (hcallee : callee ≠ .publish)
    {work : SessionWrapper kind → Option (α × SessionWrapper kind)}
    (hwork : Bounds work fun _ => False) (htotal : ∀ w, work w ≠ none) :
    Careful e (call e callee work) := fun q i n W =>
  (triple_call_loud hcallee hwork htotal q i n W).weaken (fun _ hs => hs) (fun _ _ hs => hs.1)
    fun _ _ hs => hs

lemma Careful.pure (a : α) : Careful e (pure a : Method kind α) :=
  fun _ _ _ _ => triple_pure fun _ hs => hs

lemma Careful.bind {p : Method kind α} {f : α → Method kind β} (hp : Careful e p)
    (hf : ∀ a, Careful e (f a)) : Careful e (p >>= f) :=
  fun q i n W => triple_bind (hp q i n W) fun a => hf a q i n W

lemma Careful.ite {c : Prop} [Decidable c] {p p' : Method kind α} (hp : Careful e p)
    (hp' : Careful e p') : Careful e (if c then p else p') := by
  split_ifs
  · exact hp
  · exact hp'

lemma careful_ask {callee : Callee} (hcallee : callee ≠ .publish)
    (value : SessionWrapper kind → α) : Careful e (ask e callee value) := by
  refine careful_call hcallee ?_ fun w => by simp
  rintro w a w' hwork
  cases hwork
  exact ⟨le_refl _, False.elim⟩

lemma careful_act {callee : Callee} (hcallee : callee ≠ .publish)
    {f : SessionWrapper kind → SessionWrapper kind} (hf : ∀ w, (f w).queue = w.queue) :
    Careful e (act e callee f) := by
  refine careful_call hcallee ?_ fun w => by simp
  rintro w a w' hwork
  cases hwork
  exact ⟨by rw [hf], False.elim⟩

lemma careful_isConnected : Careful e (isConnected e : Method kind Bool) :=
  careful_ask (by decide) _

lemma careful_lastMessageId : Careful e (lastMessageId e : Method kind ℤ) :=
  careful_ask (by decide) _

lemma careful_isInflightFull : Careful e (isInflightFull e : Method kind Bool) := by
  cases kind with
  | transient =>
      have hlook : Careful e (look fun s : FlaggedWrapper .transient =>
          s.wrapper.config.sessionInflightMaxCapacity : Method .transient ℤ) :=
        fun q i n W => triple_look fun s hs => hs
      refine hlook.bind fun capacity => .ite ?_ (.pure _)
      exact (careful_ask (by decide) _).bind fun size => .pure _
  | persistent => exact careful_ask (by decide) _

lemma careful_recordQueueSize : Careful e (recordQueueSize e : Method kind Unit) :=
  .ite (careful_act (by decide) fun _ => rfl) (.pure ())

lemma careful_recordInflightSize : Careful e (recordInflightSize e : Method kind Unit) :=
  .ite (careful_act (by decide) fun _ => rfl) (.pure ())

lemma careful_nextMessageId : Careful e (nextMessageId e : Method kind ℤ) :=
  careful_isConnected.bind fun _ => .ite (.pure _) (careful_lastMessageId.bind fun _ => .pure _)

lemma careful_mustStop : Careful e (mustStop e : Method kind Bool) :=
  careful_isConnected.bind fun _ => .ite (.pure true)
    ((careful_ask (by decide) _).bind fun _ => .ite (.pure true) careful_isInflightFull)

/-- The exception of a closed endpoint is caught. -/
lemma careful_publish (message : MqttMessage) : Careful e (publish e message : Method kind ℤ) := by
  refine careful_isConnected.bind fun _ => .ite (.pure _) (.bind ?_ fun sent =>
    .ite (.pure _) (.ite (.pure _) careful_lastMessageId))
  intro q i n W
  have hwork : Bounds (fun w : SessionWrapper kind => (w.endpoint.publish message.uid message.topic
      message.payload message.qos message.dup message.retain).map fun endpoint =>
        ((), { w with endpoint := endpoint })) fun _ => False := by
    rintro w a w' hwork
    obtain ⟨endpoint, -, hpair⟩ := Option.map_eq_some_iff.1 hwork
    cases hpair
    exact ⟨le_refl _, False.elim⟩
  refine triple_catching (triple_bind ((triple_call hwork .publish q i n W).weaken (fun s hs => hs)
    (fun a s hs => hs.1) fun x s hs => hs) fun _ => triple_pure fun s hs => hs) ?_ ?_
  · rintro x s a ⟨hq, hi, hn, made, hquiet, hmade, hwhy⟩ hcaught
    split_ifs at hcaught with hx
    refine ⟨hq, hi, hn, ?_⟩
    rw [hmade, quiet_concat]
    refine ⟨hquiet, fun fault hfault => ?_⟩
    rcases hwhy with ⟨isDone, hthrown⟩ | ⟨hnone, -⟩
    · obtain rfl := Option.some.inj (hthrown.symm.trans hfault)
      exact ⟨rfl, hx⟩
    · cases hnone.symm.trans hfault
  · rintro x s ⟨hq, hi, -, made, -, hmade, hwhy⟩ hpassed
    split_ifs at hpassed with hx
    rcases hwhy with ⟨isDone, hthrown⟩ | ⟨-, hillegal, -⟩
    · refine ⟨hq, hi, ?_⟩
      rw [hmade, quiet_concat]
      rintro ⟨-, hlast⟩
      exact hx (hlast _ hthrown).2
    · exact absurd hillegal hx

lemma careful_storePolled (message : MqttMessage) :
    Careful e (storePolled e message : Method kind Bool) := by
  have hput : ∀ (messageId : ℤ) (message : MqttMessage),
      Careful e (putInflight e messageId message : Method kind Unit) :=
    fun messageId message => careful_act (by decide) fun _ => rfl
  have htimeout : ∀ messageId : ℤ, Careful e (saveInflightTimeout e messageId : Method kind Unit) :=
    fun messageId => careful_act (by decide) fun _ => rfl
  cases kind with
  | persistent =>
      exact careful_nextMessageId.bind fun messageId => (hput _ _).bind fun _ =>
        careful_recordInflightSize.bind fun _ => .ite ((htimeout _).bind fun _ =>
          (careful_publish _).bind fun _ => .pure _) (.pure _)
  | transient =>
      exact careful_nextMessageId.bind fun messageId => .ite ((hput _ _).bind fun _ =>
        (htimeout _).bind fun _ => careful_recordInflightSize.bind fun _ =>
          (careful_publish _).bind fun _ => .pure _) (.pure _)

lemma careful_sendPolled (message : MqttMessage) :
    Careful e (sendPolled e message : Method kind Bool) :=
  .ite ((careful_publish message).bind fun _ => .ite (.pure _) (careful_storePolled message))
    (careful_storePolled message)

lemma triple_lockedRound (q i : Bool) (n : ℕ) (W : FlaggedWrapper kind → Prop) :
    Triple (Tidy e q i n) (lockedRound e : Method kind Bool) (Again e q i n) (fun _ => Loud e q i)
      W := by
  have hpoll : Bounds (fun w : SessionWrapper kind => match w.queue.items with
      | [] => some (none, w)
      | message :: rest => some (some message, w.setQueue rest)) fun polled => polled ≠ none := by
    rintro w polled w' hwork
    dsimp only at hwork
    split at hwork
    · cases hwork
      exact ⟨le_refl _, fun hne => absurd rfl hne⟩
    · rename_i message rest hitems
      cases hwork
      rw [hitems]
      exact ⟨Nat.le_succ _, fun _ => le_refl _⟩
  simp only [lockedRound]
  refine triple_bind (careful_mustStop q i n W) fun stop => triple_ite (fun _ => ?_) fun _ => ?_
  · exact triple_pure fun s hs => hs
  · have htotal : ∀ w : SessionWrapper kind, (match w.queue.items with
        | [] => some (none, w)
        | message :: rest => some (some message, w.setQueue rest)) ≠ none := by
      intro w
      split <;> simp
    refine triple_bind (triple_call_loud (by decide) hpoll htotal q i n W) fun polled => ?_
    cases polled with
    | none => exact triple_pure fun s hs => hs.1
    | some message =>
        rintro s ⟨hs, htaken⟩
        have hless := htaken (by simp)
        have hrest : Careful e (do
            recordQueueSize e
            sendPolled e message : Method kind Bool) :=
          careful_recordQueueSize.bind fun _ => careful_sendPolled message
        refine (hrest q i (n - 1) W).weaken (fun s hs => hs) (fun again s hs => ?_)
          (fun x s hs => hs) s ⟨hs.1, hs.2.1, by omega, hs.2.2.2⟩
        cases again with
        | true => exact ⟨n - 1, by omega, hs⟩
        | false => exact ⟨hs.1, hs.2.1, le_trans hs.2.2.1 (Nat.sub_le n 1), hs.2.2.2⟩

/-- A round takes a message, or it is the last one. -/
lemma triple_round (q i : Bool) (n : ℕ) :
    Triple (Tidy e q i n) (round e : Method kind Bool) (Again e q i n) (fun _ => Loud e q i)
      (fun _ => i = true) := by
  simp only [round]
  refine triple_bind (careful_mustStop q i n _) fun stop => triple_ite (fun _ => ?_) fun _ => ?_
  · exact triple_pure fun s hs => hs
  · refine triple_bind (R := fun _ s => i = false ∧ Tidy e q true n s) ?_ fun _ => ?_
    · -- the flag is taken, if it is free
      rintro s ⟨hq, hi, hn, hquiet⟩
      simp only [takeInflightCas]
      split_ifs with hheld
      · exact hi ▸ hheld
      · exact ⟨by simpa [hi] using hheld, hq, rfl, hn, hquiet⟩
    · rintro s ⟨rfl, hs⟩
      refine triple_withFinally (triple_lockedRound q true n _) ?_ ?_ s hs
      · intro again s hs
        cases again with
        | true =>
            obtain ⟨m, hless, hq, -, hn, hquiet⟩ := hs
            exact ⟨m, hless, hq, rfl, hn, hquiet⟩
        | false =>
            obtain ⟨hq, -, hn, hquiet⟩ := hs
            exact ⟨hq, rfl, hn, hquiet⟩
      · rintro x s ⟨hq, -, hloud⟩
        exact ⟨hq, rfl, hloud⟩

/-- What `dequeue` leaves if the queue flag is free. -/
lemma triple_dequeue (i : Bool) :
    Triple (fun s => s.queueCas = false ∧ s.inflightCas = i ∧ Quiet e s.made)
      (dequeue e : Method kind Unit)
      (fun _ s => s.queueCas = false ∧ s.inflightCas = i ∧ Quiet e s.made) (fun _ => Loud e true i)
      (fun _ => i = true) := by
  rintro s ⟨hq, hi, hquiet⟩
  simp only [dequeue]
  rw [if_neg (by simp [hq])]
  have hround : ∀ n, Triple (Tidy e true i n) (round e : Method kind Bool)
      (fun again s => if again then ∃ m < n, Tidy e true i m s else ∃ n, Tidy e true i n s)
      (fun _ => Loud e true i) (fun _ => i = true) := fun n =>
    (triple_round true i n).weaken (fun s hs => hs) (fun again s hs => by
      cases again with
      | true => exact hs
      | false => exact ⟨n, hs⟩) fun x s hs => hs
  have hloop := triple_rounds (P := Tidy e true i) (Q := fun _ s => ∃ n, Tidy e true i n s) hround
    (Nat.lt_succ_self s.wrapper.queue.items.length)
  refine triple_bind hloop (fun _ => triple_change ?_) _ ⟨rfl, hi, le_refl _, hquiet⟩
  rintro s' ⟨n, hq', hi', -, hquiet'⟩
  exact ⟨rfl, hi', hquiet'⟩

/-! ### Without exceptions -/

/-- The method returns and has changed the wrapper; the flags are as before. -/
def Does (s : FlaggedWrapper kind) (p : Method kind α) (a : α) (w : SessionWrapper kind) : Prop :=
  ∃ made, p s = (.returned a, { s with wrapper := w, made := made })

variable {s : FlaggedWrapper kind} {w : SessionWrapper kind} {a : α}

lemma does_pure (s : FlaggedWrapper kind) (a : α) : Does s (pure a) a s.wrapper := ⟨s.made, rfl⟩

lemma Does.bind {p : Method kind α} {f : α → Method kind β} {b : β} {w' : SessionWrapper kind}
    (hp : Does s p a w) (hf : ∀ made, Does { s with wrapper := w, made := made } (f a) b w') :
    Does s (p >>= f) b w' := by
  obtain ⟨made, hp⟩ := hp
  obtain ⟨made', hf⟩ := hf made
  exact ⟨made', (andThen_of_returned hp).trans hf⟩

section Calm

variable (hcalm : e.Calm)

include hcalm

lemma does_call {callee : Callee} {work : SessionWrapper kind → Option (α × SessionWrapper kind)}
    (hwork : work s.wrapper = some (a, w)) : Does s (call e callee work) a w := by
  refine ⟨s.made ++ [callee], ?_⟩
  simp only [call]
  rw [hcalm, hwork]

lemma does_ask (s : FlaggedWrapper kind) (callee : Callee) (value : SessionWrapper kind → α) :
    Does s (ask e callee value) (value s.wrapper) s.wrapper := does_call hcalm rfl

lemma does_act (s : FlaggedWrapper kind) (callee : Callee)
    (f : SessionWrapper kind → SessionWrapper kind) :
    Does s (act e callee f) () (f s.wrapper) := does_call hcalm rfl

lemma does_isInflightFull (s : FlaggedWrapper kind) :
    Does s (isInflightFull e) s.wrapper.isInflightFull s.wrapper := by
  cases kind with
  | persistent => exact does_ask hcalm s _ _
  | transient =>
      by_cases hcapacity : s.wrapper.config.sessionInflightMaxCapacity > 0
      · have hfull : s.wrapper.isInflightFull = decide
            (((PlainMap.values s.wrapper.inflights).length : ℤ) ≥
              s.wrapper.config.sessionInflightMaxCapacity) := by
          show decide _ = decide _
          simp only [hcapacity, true_and]
        rw [hfull]
        refine Does.bind ⟨s.made, rfl⟩ fun made => ?_
        rw [if_pos hcapacity]
        exact (does_ask hcalm _ _ _).bind fun made => does_pure _ _
      · have hfull : s.wrapper.isInflightFull = false := by
          show decide _ = false
          simp only [hcapacity, false_and, decide_false]
        rw [hfull]
        refine Does.bind ⟨s.made, rfl⟩ fun made => ?_
        rw [if_neg hcapacity]
        exact does_pure _ _

lemma does_mustStop (s : FlaggedWrapper kind) :
    Does s (mustStop e) (!s.wrapper.endpoint.isConnected || s.wrapper.queue.items.isEmpty ||
      s.wrapper.isInflightFull) s.wrapper := by
  refine (does_ask hcalm s _ _).bind fun made => ?_
  by_cases hc : s.wrapper.endpoint.isConnected = true
  · rw [if_neg (by simp [hc])]
    refine (does_ask hcalm _ _ _).bind fun made => ?_
    by_cases hempty : s.wrapper.queue.items.isEmpty = true
    · rw [if_pos hempty, hempty, Bool.or_true, Bool.true_or]
      exact does_pure _ _
    · rw [if_neg hempty]
      have hstop : (!s.wrapper.endpoint.isConnected || s.wrapper.queue.items.isEmpty ||
          s.wrapper.isInflightFull) = s.wrapper.isInflightFull := by simp [hc, hempty]
      rw [hstop]
      exact does_isInflightFull hcalm _
  · rw [if_pos (by simpa using hc)]
    have hstop : (!s.wrapper.endpoint.isConnected || s.wrapper.queue.items.isEmpty ||
        s.wrapper.isInflightFull) = true := by simp [hc]
    rw [hstop]
    exact does_pure _ _

lemma does_nextMessageId (s : FlaggedWrapper kind) :
    Does s (nextMessageId e) (IdUtil.nextMessageId s.wrapper.endpoint) s.wrapper := by
  refine (does_ask hcalm s _ _).bind fun made => ?_
  simp only [IdUtil.nextMessageId]
  by_cases hc : (!s.wrapper.endpoint.isConnected) = true
  · rw [if_pos hc, if_pos hc]
    exact does_pure _ _
  · rw [if_neg hc, if_neg hc]
    exact (does_ask hcalm _ _ _).bind fun made => does_pure _ _

lemma does_publish (s : FlaggedWrapper kind) (message : MqttMessage) :
    Does s (publish e message) (s.wrapper.publish message false).1
      (s.wrapper.publish message false).2 := by
  refine (does_ask hcalm s _ _).bind fun made => ?_
  by_cases hc : s.wrapper.endpoint.isConnected = true
  · obtain ⟨endpoint, hendpoint⟩ : ∃ endpoint, s.wrapper.endpoint.publish message.uid message.topic
        message.payload message.qos message.dup message.retain = some endpoint := by
      simp only [MqttEndpoint.publish]
      rw [if_pos hc]
      exact ⟨_, rfl⟩
    have hpublish : s.wrapper.publish message false =
        (if message.qos = .atMostOnce then 0 else endpoint.lastMessageId,
          { s.wrapper with endpoint := endpoint }) := by
      simp only [SessionWrapper.publish]
      rw [if_neg Bool.false_ne_true, hendpoint]
    rw [if_neg (by simp [hc]), hpublish]
    refine Does.bind (a := true) (w := { s.wrapper with endpoint := endpoint }) ?_ fun made => ?_
    · obtain ⟨made', hcall⟩ := (does_call hcalm (by rw [hendpoint]; rfl) :
        Does { s with made := made } (call e .publish fun w => (w.endpoint.publish message.uid
          message.topic message.payload message.qos message.dup message.retain).map
          fun endpoint => ((), { w with endpoint := endpoint })) ()
          { s.wrapper with endpoint := endpoint })
      exact ⟨made', catching_of_returned (andThen_of_returned hcall)⟩
    · rw [if_neg (by simp)]
      by_cases hqos : message.qos = .atMostOnce
      · rw [if_pos hqos, if_pos hqos]
        exact does_pure _ _
      · rw [if_neg hqos, if_neg hqos]
        exact does_ask hcalm _ _ _
  · rw [if_pos (by simpa using hc),
      SessionWrapper.publish_of_not_connected _ _ _ (by simpa using hc)]
    exact does_pure _ _

lemma does_recordQueueSize (s : FlaggedWrapper kind) :
    Does s (recordQueueSize e) () s.wrapper := by
  simp only [recordQueueSize]
  split_ifs
  · exact does_act hcalm s _ id
  · exact does_pure s ()

lemma does_recordInflightSize (s : FlaggedWrapper kind) :
    Does s (recordInflightSize e) () s.wrapper := by
  simp only [recordInflightSize]
  split_ifs
  · exact does_act hcalm s _ id
  · exact does_pure s ()

/-- With a packet id the message is stored and sent. -/
lemma does_storePolled_of_pos (s : FlaggedWrapper kind) (message : MqttMessage)
    (hpos : IdUtil.nextMessageId s.wrapper.endpoint > 0) :
    Does s (storePolled e message) true
      ((s.wrapper.putInflight (IdUtil.nextMessageId s.wrapper.endpoint)
        { message with messageId := IdUtil.nextMessageId s.wrapper.endpoint }).saveInflightTimeout
        (IdUtil.nextMessageId s.wrapper.endpoint) |>.publish
        { message with messageId := IdUtil.nextMessageId s.wrapper.endpoint } false).2 := by
  cases kind with
  | persistent =>
      refine (does_nextMessageId hcalm s).bind fun made => ?_
      refine (does_act hcalm _ _ _).bind fun made => ?_
      refine (does_recordInflightSize hcalm _).bind fun made => ?_
      rw [if_pos hpos]
      refine (does_act hcalm _ _ _).bind fun made => ?_
      exact (does_publish hcalm _ _).bind fun made => does_pure _ _
  | transient =>
      refine (does_nextMessageId hcalm s).bind fun made => ?_
      rw [if_pos hpos]
      refine (does_act hcalm _ _ _).bind fun made => ?_
      refine (does_act hcalm _ _ _).bind fun made => ?_
      refine (does_recordInflightSize hcalm _).bind fun made => ?_
      exact (does_publish hcalm _ _).bind fun made => does_pure _ _

/-- Without one it is stored by a persistent session. -/
lemma does_storePolled_of_not_pos (s : FlaggedWrapper kind) (message : MqttMessage)
    (hpos : ¬IdUtil.nextMessageId s.wrapper.endpoint > 0) :
    Does s (storePolled e message) false
      (if kind = .persistent then s.wrapper.putInflight (IdUtil.nextMessageId s.wrapper.endpoint)
        { message with messageId := IdUtil.nextMessageId s.wrapper.endpoint } else s.wrapper) := by
  cases kind with
  | persistent =>
      rw [if_pos rfl]
      refine (does_nextMessageId hcalm s).bind fun made => ?_
      refine (does_act hcalm _ _ _).bind fun made => ?_
      refine (does_recordInflightSize hcalm _).bind fun made => ?_
      rw [if_neg hpos]
      exact does_pure _ _
  | transient =>
      rw [if_neg (by decide)]
      refine (does_nextMessageId hcalm s).bind fun made => ?_
      rw [if_neg hpos]
      exact does_pure _ _

/-- What a round does with a polled message is what it does in the model of a session. -/
lemma does_sendPolled (s : FlaggedWrapper kind) (message : MqttMessage) :
    Does s (sendPolled e message) (s.wrapper.sendPolled message).1
      (s.wrapper.sendPolled message).2 := by
  rw [sendPolled, SessionWrapper.sendPolled]
  dsimp only
  by_cases hqos : message.qos = .atMostOnce
  · rw [if_pos hqos, if_pos hqos]
    refine (does_publish hcalm s message).bind fun made => ?_
    by_cases hlost : (s.wrapper.publish message false).1 ≠ 0
    · rw [if_pos hlost, if_pos ⟨hqos, hlost⟩]
      exact does_pure _ _
    · rw [if_neg hlost, if_neg fun h => hlost h.2]
      by_cases hpos : IdUtil.nextMessageId (s.wrapper.publish message false).2.endpoint > 0
      · rw [if_pos hpos]
        exact does_storePolled_of_pos hcalm _ message hpos
      · rw [if_neg hpos, ← apply_ite (Prod.mk false)]
        exact does_storePolled_of_not_pos hcalm _ message hpos
  · rw [if_neg hqos, if_neg hqos, if_neg fun h => hqos h.1]
    by_cases hpos : IdUtil.nextMessageId s.wrapper.endpoint > 0
    · rw [if_pos hpos]
      exact does_storePolled_of_pos hcalm s message hpos
    · rw [if_neg hpos, ← apply_ite (Prod.mk false)]
      exact does_storePolled_of_not_pos hcalm s message hpos

/-- The loop stops before it polls a message. -/
lemma does_round_of_stop
    (hstop : (!s.wrapper.endpoint.isConnected || s.wrapper.queue.items.isEmpty ||
      s.wrapper.isInflightFull) = true) : Does s (round e) false s.wrapper := by
  refine (does_mustStop hcalm s).bind fun made => ?_
  rw [if_pos hstop]
  exact does_pure _ _

/-- The first message is polled and handled. -/
lemma does_round (hfree : s.inflightCas = false) {message : MqttMessage} {rest : List MqttMessage}
    (hitems : s.wrapper.queue.items = message :: rest)
    (hgo : (!s.wrapper.endpoint.isConnected || s.wrapper.queue.items.isEmpty ||
      s.wrapper.isInflightFull) = false) :
    Does s (round e) ((s.wrapper.setQueue rest).sendPolled message).1
      ((s.wrapper.setQueue rest).sendPolled message).2 := by
  have hlocked : ∀ made, Does { s with inflightCas := true, made := made } (lockedRound e)
      ((s.wrapper.setQueue rest).sendPolled message).1
      ((s.wrapper.setQueue rest).sendPolled message).2 := by
    intro made
    refine (does_mustStop hcalm _).bind fun made => ?_
    rw [if_neg (by simp [hgo])]
    refine (does_call hcalm (by dsimp only; rw [hitems])).bind fun made => ?_
    refine (does_recordQueueSize hcalm _).bind fun made => ?_
    exact does_sendPolled hcalm _ message
  refine (does_mustStop hcalm s).bind fun made => ?_
  rw [if_neg (by simp [hgo])]
  obtain ⟨made', hrun⟩ := hlocked made
  refine ⟨made', ?_⟩
  have htake : takeInflightCas { s with made := made } =
      (.returned (), { s with inflightCas := true, made := made }) := by
    simp only [takeInflightCas]
    rw [if_neg (by simp [hfree])]
  refine (andThen_of_returned htake).trans ((withFinally_of_returned hrun).trans ?_)
  simp only [releaseInflightCas]
  rw [hfree]

lemma does_rounds (hfree : s.inflightCas = false) {fuel : ℕ}
    (hfuel : s.wrapper.queue.items.length < fuel) :
    Does s (rounds (round e) fuel) () (s.wrapper.dequeueFrom s.wrapper.queue.items) := by
  induction fuel generalizing s with
  | zero => exact absurd hfuel (Nat.not_lt_zero _)
  | succ fuel ih =>
      cases hitems : s.wrapper.queue.items with
      | nil =>
          have hsame : s.wrapper.dequeueFrom [] = s.wrapper := by
            simp only [SessionWrapper.dequeueFrom]
            rw [← hitems]
            rfl
          rw [hsame]
          refine (does_round_of_stop hcalm (by simp [hitems])).bind fun made => ?_
          exact does_pure _ _
      | cons message rest =>
          simp only [SessionWrapper.dequeueFrom]
          by_cases hstop : (!s.wrapper.endpoint.isConnected || s.wrapper.isInflightFull) = true
          · have hsame : s.wrapper.setQueue (message :: rest) = s.wrapper := by
              rw [← hitems]
              rfl
            rw [if_pos hstop, hsame]
            refine (does_round_of_stop hcalm (by simpa [hitems] using hstop)).bind fun made => ?_
            exact does_pure _ _
          · rw [if_neg hstop]
            have hround := does_round hcalm hfree hitems (by simpa [hitems] using hstop)
            have hqueue := SessionWrapper.sendPolled_queue (s.wrapper.setQueue rest) message
            rcases hresult : (s.wrapper.setQueue rest).sendPolled message with ⟨again, w'⟩
            rw [hresult] at hround hqueue
            refine hround.bind fun made => ?_
            cases again with
            | false => exact does_pure _ _
            | true =>
                have hrest : w'.queue.items = rest := by rw [hqueue]; rfl
                rw [← hrest]
                refine ih hfree ?_
                rw [hitems, length_cons] at hfuel
                show w'.queue.items.length < fuel
                rw [hrest]
                omega

/-- Without exceptions `dequeue` is the one of the model of a session. -/
lemma does_dequeue (hqueue : s.queueCas = false) (hfree : s.inflightCas = false) :
    Does s (dequeue e) () s.wrapper.dequeue := by
  obtain ⟨made, hloop⟩ := does_rounds (s := { s with queueCas := true }) hcalm hfree
    (Nat.lt_succ_self _)
  refine ⟨made, ?_⟩
  simp only [dequeue]
  rw [if_neg (by simp [hqueue])]
  refine (andThen_of_returned hloop).trans ?_
  show (Outcome.returned (), releaseQueueCas _) = _
  simp only [releaseQueueCas]
  rw [hqueue]
  rfl

end Calm

/-! ### Results -/

/-- A round that sends goes on with the rest of the queue. -/
lemma suffix_sent {message : MqttMessage} {rest : List MqttMessage}
    (hsends : (!w.endpoint.isConnected || w.isInflightFull) = false)
    (hrest : ∀ w' : SessionWrapper kind, (w'.dequeueFrom rest).queue.items <:+ rest) :
    (w.dequeueFrom (message :: rest)).queue.items <:+ rest := by
  rw [SessionWrapper.dequeueFrom, if_neg (by simp [hsends])]
  have hqueue := SessionWrapper.sendPolled_queue (w.setQueue rest) message
  rcases hresult : (w.setQueue rest).sendPolled message with ⟨again, w'⟩
  rw [hresult] at hqueue
  cases again with
  | true => exact hrest w'
  | false =>
      dsimp only at hqueue ⊢
      rw [hqueue]
      exact suffix_refl _

lemma suffix_dequeueFrom (w : SessionWrapper kind) (items : List MqttMessage) :
    (w.dequeueFrom items).queue.items <:+ items := by
  induction items generalizing w with
  | nil => exact suffix_refl []
  | cons message rest ih =>
      cases hstops : !w.endpoint.isConnected || w.isInflightFull with
      | true =>
          rw [SessionWrapper.dequeueFrom, if_pos hstops]
          exact suffix_refl _
      | false => exact (suffix_sent hstops ih).trans (suffix_cons message rest)

/-- A `dequeue` that can send takes the first message. -/
lemma suffix_dequeue (h : CanSend w) : w.dequeue.queue.items <:+ w.queue.items.tail := by
  obtain ⟨hc, hne, hroom⟩ := h
  rw [SessionWrapper.dequeue]
  cases hitems : w.queue.items with
  | nil => exact absurd hitems hne
  | cons message rest =>
      exact suffix_sent (by simp [hc, hroom]) fun w' => suffix_dequeueFrom w' rest

/-- **The flags of `dequeue`.**  For every wrapper of either kind and whatever the calls do that
`dequeue` makes: it ends if the inflight flag is free, and when it ends, the flags that it took are
0 again, and a later `publishCachedMessage` takes a message, iff no call that it made throws but for
an `endpoint.publish` with an `IllegalStateException`. -/
theorem releases_iff (e : Setting) (w : SessionWrapper kind) (queueCas inflightCas : Bool) :
    (inflightCas = false → (dequeue e ⟨w, queueCas, inflightCas, []⟩).1 ≠ .waiting) ∧
      ((dequeue e ⟨w, queueCas, inflightCas, []⟩).1 ≠ .waiting →
        (Releases ⟨w, queueCas, inflightCas, []⟩ (dequeue e ⟨w, queueCas, inflightCas, []⟩).2 ↔
          Quiet e (dequeue e ⟨w, queueCas, inflightCas, []⟩).2.made)) := by
  have hnone : Quiet e [] := fun n callee hget => by simp at hget
  cases queueCas with
  | true =>
      -- the flag is taken already, and nothing happens
      refine ⟨fun _ => by simp [dequeue], fun _ => iff_of_true ⟨rfl, rfl, fun hfree => ?_⟩ hnone⟩
      cases hfree
  | false =>
      have hpost :=
        triple_dequeue (e := e) inflightCas ⟨w, false, inflightCas, []⟩ ⟨rfl, rfl, hnone⟩
      rcases hrun : dequeue e ⟨w, false, inflightCas, []⟩ with ⟨_ | x | _, s'⟩ <;>
        rw [hrun] at hpost
      · obtain ⟨hqueue, hinflight, hquiet⟩ := hpost
        refine ⟨fun _ => by simp, fun _ => iff_of_true ⟨hqueue, hinflight, ?_⟩ hquiet⟩
        rintro - hfree w' e' hsend hcalm
        dsimp only at hfree ⊢
        rw [hqueue, hinflight, hfree]
        obtain ⟨made, hdoes⟩ := does_dequeue (s := ⟨w', false, false, []⟩) hcalm rfl rfl
        simp only [publishCachedMessage]
        rw [hdoes]
        exact ⟨rfl, suffix_dequeue hsend⟩
      · obtain ⟨hqueue, -, hloud⟩ := hpost
        refine ⟨fun _ => by simp, fun _ => iff_of_false (fun hreleases => ?_) hloud⟩
        cases hqueue.symm.trans hreleases.queueCas
      · refine ⟨fun hfree => ?_, fun hends => absurd rfl hends⟩
        cases hpost.symm.trans hfree

/-- A persistent session with a message in its queue. -/
def storedWrapper : SessionWrapper .persistent where
  config := sampleConfig
  thisClientId := ['c']
  endpoint := sampleEndpoint
  queue := ⟨10, [sampleMessage]⟩
  inflights := BoundedIgniteMapUnsafe.create 10
  timeouts := []
  ledger := .empty

/-- The store of the queue fails once, after the poll. -/
def failingPoll : Setting := ⟨fun n => if n = 6 then some ⟨.other, true⟩ else none, false⟩

theorem releases_iff_failing :
    Releases ⟨storedWrapper, false, false, []⟩
        (dequeue failingPoll ⟨storedWrapper, false, false, []⟩).2 ↔
      Quiet failingPoll (dequeue failingPoll ⟨storedWrapper, false, false, []⟩).2.made :=
  (releases_iff failingPoll storedWrapper false false).2
    ((releases_iff failingPoll storedWrapper false false).1 rfl)

/-- The failing store leaves the queue flag set. -/
theorem not_releases :
    ¬∀ (kind : SessionKind) (e : Setting) (w : SessionWrapper kind) (queueCas inflightCas : Bool),
      (dequeue e ⟨w, queueCas, inflightCas, []⟩).1 ≠ .waiting →
        Releases ⟨w, queueCas, inflightCas, []⟩ (dequeue e ⟨w, queueCas, inflightCas, []⟩).2 := by
  intro h
  have hqueue := (h .persistent failingPoll storedWrapper false false (by decide)).queueCas
  exact absurd hqueue (by decide)

end FlaggedWrapper

end Stuart
