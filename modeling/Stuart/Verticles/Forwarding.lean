/-
Forwarding a message to the node that holds the session of a matched subscriber.

The sender asks the other node over the event bus to run `handleLocalPublishMessage`, and takes a
failure of the request as a sign that it has to put the message into the stored queue itself.  The
bus may lose the request, and it may lose the reply or deliver it too late, so a request that
failed may have been handled, or may still be.

A run has one route and one message.  The sessions are part of the cluster, and whatever else goes
on there may change them between any two steps.
-/
import Stuart.Lib.Runs
import Stuart.Services.Lifecycle

namespace Stuart

open List Lib

namespace Forwarding

/-- What the nodes share, and the registered wrappers of each node. -/
structure Cluster where
  cacheService : CacheService
  wrappers : UUID → PlainMap Str Wrapper

/-- `getWrapper`, of a node. -/
def Cluster.getWrapper (c : Cluster) (nodeId : UUID) (clientId : Str) : Option Wrapper :=
  if !IdUtil.validateClientId clientId then none else (c.wrappers nodeId).get clientId

/-- A packet on the event bus. -/
inductive Transit where
  | unsent
  | inFlight
  | delivered
  | lost
deriving DecidableEq

/-- The handler of the request, at the sender. -/
inductive Sender where
  | waiting
  /-- the request failed, and the task that enqueues was started -/
  | enqueueing
  | finished
deriving DecidableEq

/-- Where the task of `handleLocalPublishMessage` is. -/
inductive Task where
  | unstarted
  /-- next at the first `getWrapper` -/
  | lookingUp
  | publishing
  /-- next at `isPersistentSession` -/
  | checking
  | enqueueing
  /-- next at the second `getWrapper` -/
  | lookingAgain
  /-- next at `publishCachedMessage` -/
  | flushing
  | finished
deriving DecidableEq

/-- How the message was given to the session. -/
inductive Handover where
  /-- `publishMessage` of a wrapper -/
  | published
  /-- an entry of the stored queue -/
  | enqueued
deriving DecidableEq

/-- What one forwarding is about. -/
structure Parcel where
  thisNodeId : UUID
  nodeId : UUID
  clientId : Str
  qos : MqttQoS
  message : MqttMessage

structure State where
  cluster : Cluster
  request : Transit
  reply : Transit
  sender : Sender
  task : Task
  given : List Handover

inductive Action where
  /-- whatever else happens in the cluster -/
  | others (cluster : Cluster)
  /-- the consumer of the other node gets the request, starts the task and replies -/
  | deliver
  | lose
  | reply
  | loseReply
  /-- the request fails at the sender: a timeout, or there is no consumer -/
  | fail
  /-- the sender's task enqueues -/
  | enqueue
  /-- the next step of the task of `handleLocalPublishMessage` -/
  | handle

namespace State

variable (p : Parcel)

/-- `handleClusteredPublishMessage`. -/
def start (cluster : Cluster) : State :=
  if p.thisNodeId = p.nodeId then ⟨cluster, .unsent, .unsent, .finished, .lookingUp, []⟩
  else ⟨cluster, .inFlight, .unsent, .waiting, .unstarted, []⟩

/-- `enqueue` of the cache service, with the entry it makes. -/
def enqueue (s : State) : State :=
  let result := s.cluster.cacheService.enqueue p.message p.clientId p.qos
  { s with
    cluster := { s.cluster with cacheService := result.2 }
    given := if result.1 then s.given ++ [.enqueued] else s.given }

/-- The next step of `handleLocalPublishMessage`, on the node of the route.  What `publishMessage`
and `publishCachedMessage` do to the session is left to the others. -/
def handle (s : State) : Option State :=
  match s.task with
  | .lookingUp =>
      match s.cluster.getWrapper p.nodeId p.clientId with
      | some _ => some { s with task := .publishing }
      | none => some { s with task := .checking }
  | .publishing => some { s with task := .finished, given := s.given ++ [.published] }
  | .checking =>
      if s.cluster.cacheService.isPersistentSession p.clientId then
        some { s with task := .enqueueing }
      else some { s with task := .finished }
  | .enqueueing => some { s.enqueue p with task := .lookingAgain }
  | .lookingAgain =>
      match s.cluster.getWrapper p.nodeId p.clientId with
      | some _ => some { s with task := .flushing }
      | none => some { s with task := .finished }
  | .flushing => some { s with task := .finished }
  | _ => none

def step (s : State) : Action → Option State
  | .others cluster => some { s with cluster }
  | .deliver =>
      if s.request = .inFlight then
        some { s with request := .delivered, reply := .inFlight, task := .lookingUp }
      else none
  | .lose => if s.request = .inFlight then some { s with request := .lost } else none
  | .reply =>
      if s.reply = .inFlight then
        -- a reply that comes too late is ignored
        some { s with
          reply := .delivered
          sender := if s.sender = .waiting then .finished else s.sender }
      else none
  | .loseReply => if s.reply = .inFlight then some { s with reply := .lost } else none
  | .fail =>
      if s.sender = .waiting then
        some { s with sender :=
          if s.cluster.cacheService.isPersistentSession p.clientId then .enqueueing else .finished }
      else none
  | .enqueue =>
      if s.sender = .enqueueing then some { s.enqueue p with sender := .finished } else none
  | .handle => s.handle p

/-- The other node may still give the message to the session. -/
def mayGive (s : State) : Bool :=
  decide (s.request = .inFlight ∨ s.task = .lookingUp ∨ s.task = .publishing ∨
    s.task = .checking ∨ s.task = .enqueueing)

/-- When the request fails and the session is persistent, the message has not been given to the
session, and the other node will not do it any more. -/
def Settled (s : State) : Action → Prop
  | .fail => s.cluster.cacheService.isPersistentSession p.clientId = true →
      s.mayGive = false ∧ s.given = []
  | _ => True

instance (s : State) : ∀ action, Decidable (s.Settled p action)
  | .fail => inferInstanceAs (Decidable (_ → _))
  | .others _ | .deliver | .lose | .reply | .loseReply | .enqueue | .handle =>
      inferInstanceAs (Decidable True)

/-! ### The invariant -/

/-- What was given, and what may still be given by either side. -/
structure Inv (s : State) : Prop where
  once : s.given.length + s.mayGive.toNat + (decide (s.sender = .enqueueing)).toNat ≤ 1
  /-- the task starts from the request, if there is one -/
  unstarted : s.request = .inFlight → s.task = .unstarted

variable {p} {s s' : State}

lemma length_given_enqueue : (s.enqueue p).given.length ≤ s.given.length + 1 := by
  simp only [enqueue]
  split_ifs
  · simp
  · exact Nat.le_succ _

/-- A step of the task gives the message at most if it might. -/
lemma Inv.advance (h : s.Inv) (hstarted : s.task ≠ .unstarted) (hrequest : s'.request = s.request)
    (hsender : s'.sender = s.sender)
    (hcount : s'.given.length + s'.mayGive.toNat ≤ s.given.length + s.mayGive.toNat) : s'.Inv := by
  have honce := h.once
  refine ⟨?_, fun heq => absurd (h.unstarted (hrequest.symm.trans heq)) hstarted⟩
  rw [hsender]
  omega

lemma Inv.handle (h : s.Inv) (hstep : s.handle p = some s') : s'.Inv := by
  simp only [State.handle] at hstep
  have hstarted : s.task ≠ .unstarted := by
    intro htask
    rw [htask] at hstep
    cases hstep
  have hrequest : s.request ≠ .inFlight := fun heq => hstarted (h.unstarted heq)
  cases htask : s.task with
  | unstarted => exact absurd htask hstarted
  | finished =>
      rw [htask] at hstep
      cases hstep
  | lookingUp =>
      rw [htask] at hstep
      dsimp only at hstep
      split at hstep
      all_goals
        obtain rfl := Option.some.inj hstep
        exact h.advance hstarted rfl rfl (by simp [mayGive, htask])
  | publishing =>
      rw [htask] at hstep
      obtain rfl := Option.some.inj hstep
      exact h.advance hstarted rfl rfl (by simp [mayGive, htask, hrequest])
  | checking =>
      rw [htask] at hstep
      dsimp only at hstep
      split_ifs at hstep
      all_goals
        obtain rfl := Option.some.inj hstep
        exact h.advance hstarted rfl rfl (by simp [mayGive, htask, hrequest])
  | enqueueing =>
      rw [htask] at hstep
      obtain rfl := Option.some.inj hstep
      have hlength := length_given_enqueue (s := s) (p := p)
      refine h.advance hstarted rfl rfl ?_
      simpa [mayGive, htask, hrequest, State.enqueue] using hlength
  | lookingAgain =>
      rw [htask] at hstep
      dsimp only at hstep
      split at hstep
      all_goals
        obtain rfl := Option.some.inj hstep
        exact h.advance hstarted rfl rfl (by simp [mayGive, htask, hrequest])
  | flushing =>
      rw [htask] at hstep
      obtain rfl := Option.some.inj hstep
      exact h.advance hstarted rfl rfl (by simp [mayGive, htask, hrequest])

lemma Inv.step (h : s.Inv) {action : Action} (hsettled : s.Settled p action)
    (hstep : s.step p action = some s') : s'.Inv := by
  have honce := h.once
  cases action with
  | others cluster =>
      obtain rfl := Option.some.inj hstep
      exact ⟨honce, h.unstarted⟩
  | deliver =>
      simp only [State.step] at hstep
      split_ifs at hstep with hrequest
      obtain rfl := Option.some.inj hstep
      refine ⟨?_, fun heq => by cases heq⟩
      -- the task takes over from the request
      simpa [mayGive, hrequest] using honce
  | lose =>
      simp only [State.step] at hstep
      split_ifs at hstep with hrequest
      obtain rfl := Option.some.inj hstep
      refine ⟨?_, fun heq => by cases heq⟩
      simp only [mayGive, hrequest, h.unstarted hrequest, true_or, decide_true, Bool.toNat_true]
        at honce
      simp only [mayGive, h.unstarted hrequest, reduceCtorEq, or_self, decide_false,
        Bool.toNat_false]
      omega
  | reply =>
      simp only [State.step] at hstep
      split_ifs at hstep with hreply hwaiting
      · obtain rfl := Option.some.inj hstep
        refine ⟨?_, h.unstarted⟩
        rw [hwaiting] at honce
        exact honce
      · obtain rfl := Option.some.inj hstep
        exact ⟨honce, h.unstarted⟩
  | loseReply =>
      simp only [State.step] at hstep
      split_ifs at hstep with hreply
      obtain rfl := Option.some.inj hstep
      exact ⟨honce, h.unstarted⟩
  | fail =>
      simp only [State.step] at hstep
      split_ifs at hstep with hsender hpersistent
      · obtain rfl := Option.some.inj hstep
        obtain ⟨hmay, hgiven⟩ := hsettled hpersistent
        refine ⟨?_, h.unstarted⟩
        have hmay' : State.mayGive { s with sender := .enqueueing } = false := hmay
        rw [hmay', hgiven]
        exact le_rfl
      · obtain rfl := Option.some.inj hstep
        refine ⟨?_, h.unstarted⟩
        rw [hsender] at honce
        exact honce
  | enqueue =>
      simp only [State.step] at hstep
      split_ifs at hstep with hsender
      obtain rfl := Option.some.inj hstep
      have hlength := length_given_enqueue (s := s) (p := p)
      refine ⟨?_, h.unstarted⟩
      have hmay : State.mayGive { s.enqueue p with sender := .finished } = s.mayGive := rfl
      simp only [hsender, decide_true, Bool.toNat_true] at honce
      simp only [hmay, reduceCtorEq, decide_false, Bool.toNat_false]
      omega
  | handle => exact h.handle hstep

lemma inv_start (p : Parcel) (cluster : Cluster) : (start p cluster).Inv := by
  simp only [start]
  split_ifs
  · exact ⟨le_rfl, fun heq => by cases heq⟩
  · exact ⟨le_rfl, fun _ => rfl⟩

end State

/-! ### Results -/

/-- **Forwarding hands over at most once.**  If the request fails, while the session is persistent,
only when the message has not been given to the session and the other node will not do it any more,
the message is given at most once, whatever the event bus does and whatever happens to the
session. -/
theorem given_run (p : Parcel) (cluster : Cluster) (actions : List Action) (s : State)
    (hsettled : AllSteps (State.step p) (State.Settled p) (.start p cluster) actions)
    (hrun : run (State.step p) (.start p cluster) actions = some s) : s.given.length ≤ 1 := by
  have h := invariant_run (fun _ _ _ _ hI hP hs => State.Inv.step hI hP hs)
    (State.inv_start p cluster) hsettled hrun
  have honce := h.once
  omega

/-- From node 1 to node 2. -/
def sampleParcel : Parcel := ⟨1, 2, ['c'], .atLeastOnce, sampleMessage⟩

/-- The client has a persistent session, and is connected to node 2 or offline. -/
def sampleCluster (online : Bool) : Cluster :=
  let b := (Broker.initial sampleConfig 2).step (.connect ['c'] false)
  ⟨b.cacheService, fun nodeId => if online && nodeId == 2 then b.wrappers else ∅⟩

/-- The request is lost, and the sender puts the message into the queue. -/
def lostActions : List Action := [.lose, .fail, .enqueue]

def lostState : State :=
  (run (State.step sampleParcel) (.start sampleParcel (sampleCluster false)) lostActions).get
    (by decide)

theorem given_run_lost : lostState.given.length ≤ 1 :=
  given_run sampleParcel (sampleCluster false) lostActions lostState (by decide)
    (Option.some_get (by decide)).symm

/-- The other node publishes the message, but its reply is lost. -/
def unansweredActions : List Action := [.deliver, .handle, .handle, .loseReply, .fail, .enqueue]

/-- The message is published to the client and put into its queue. -/
theorem not_given_run :
    ¬∀ s, run (State.step sampleParcel) (.start sampleParcel (sampleCluster true))
      unansweredActions = some s → s.given.length ≤ 1 := by
  intro hall
  have hgiven : (run (State.step sampleParcel) (.start sampleParcel (sampleCluster true))
      unansweredActions).map State.given = some [.published, .enqueued] := by decide
  obtain ⟨s, hrun, hs⟩ := Option.map_eq_some_iff.1 hgiven
  have hle := hall s hrun
  rw [hs] at hle
  exact absurd hle (by decide)

end Forwarding

end Stuart
