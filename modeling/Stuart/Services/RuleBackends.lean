/-
The auth services that ask Redis, MySQL and MongoDB.

Each one answers in the callback of its backend: `auth` compares a password, and `access` goes over
the rules that came back.  MySQL returns a list of rules; MongoDB returns documents, and Redis
hashes, with several rules each, and there the inner loop is left at the first rule that matches
and the outer one when the request is filled in.  An exception in the callback ends it, so the
handler is not called.  Whatever the grouping, a new request gets what the first rule that stops the
loops gives (`setAuthority_eq` of each service).
-/
import Stuart.Utils.StoredAuthority
import Stuart.Entities.MqttMessage

namespace Stuart

open List AuthUtil StringUtils

/-- The result that a backend hands to its callback; on success it may be null. -/
inductive AsyncResult (α : Type) where
  | failed
  | succeeded (result : Option α)

/-- The calls of the handler at the end of a callback: none after an exception. -/
def handlerCalls {α : Type} : Except Thrown α → List α
  | .ok answer => [answer]
  | .error _ => []

/-- What the body of a loop does at a rule: nothing, or it fills in the request, or throws. -/
abbrev Seen := Option (Except Thrown (Access × Authority))

namespace MqttAuthority

/-- Topic and failure code are set, access and authority are not. -/
def Fresh (auth : MqttAuthority) : Prop := auth.access = none ∧ auth.authority = none

def withFound (auth : MqttAuthority) (found : Access × Authority) : MqttAuthority :=
  { auth with access := some found.1, authority := some found.2 }

/-- The request after the loops. -/
def outcome (auth : MqttAuthority) : Seen → Except Thrown MqttAuthority
  | none => .ok auth
  | some (.ok found) => .ok (auth.withFound found)
  | some (.error thrown) => .error thrown

end MqttAuthority

open MqttAuthority

/-! ### The loops -/

namespace AuthLoop

variable {ρ γ : Type}

/-- The loop over rules: it is left at the first rule that matches. -/
def rules (seen : ρ → Seen) (auth : MqttAuthority) : List ρ → Except Thrown MqttAuthority
  | [] => .ok auth
  | rule :: rest =>
      match seen rule with
      | none => rules seen auth rest
      | some (.ok found) => .ok (auth.withFound found)
      | some (.error thrown) => .error thrown

/-- The loop over groups of rules: it is left when access and authority are set. -/
def groups (skips : γ → Bool) (inner : MqttAuthority → γ → Except Thrown MqttAuthority)
    (auth : MqttAuthority) : List γ → Except Thrown MqttAuthority
  | [] => .ok auth
  | group :: rest =>
      if skips group then groups skips inner auth rest
      else
        match inner auth group with
        | .error thrown => .error thrown
        | .ok auth =>
            if auth.access.isSome && auth.authority.isSome then .ok auth
            else groups skips inner auth rest

/-- The loop over requests: one with the failure code is passed over. -/
def requests (single : MqttAuthority → Except Thrown MqttAuthority) :
    List MqttAuthority → Except Thrown (List MqttAuthority)
  | [] => .ok []
  | auth :: auths =>
      match if auth.qos = MqttQoS.FAILURE then .ok auth else single auth with
      | .error thrown => .error thrown
      | .ok auth => (requests single auths).map fun auths => auth :: auths

lemma rules_eq (seen : ρ → Seen) (auth : MqttAuthority) (list : List ρ) :
    rules seen auth list = auth.outcome (list.findSome? seen) := by
  induction list with
  | nil => rfl
  | cons rule rest ih =>
      rw [rules, findSome?_cons]
      match seen rule with
      | none => exact ih
      | some (.ok found) => rfl
      | some (.error thrown) => rfl

/-- The loops over groups find what one loop over the rules of all groups finds. -/
lemma findSome?_flatMap {β : Type} (seen : ρ → Option β) (ruleOf : γ → List ρ) (list : List γ) :
    (list.flatMap ruleOf).findSome? seen = list.findSome? fun group =>
      (ruleOf group).findSome? seen := by
  induction list with
  | nil => rfl
  | cons group rest ih =>
      rw [flatMap_cons, findSome?_append, findSome?_cons, ih]
      cases (ruleOf group).findSome? seen <;> rfl

/-- A new request is still new where nothing was found, so the outer loop goes on there. -/
lemma groups_eq {skips : γ → Bool} {inner : MqttAuthority → γ → Except Thrown MqttAuthority}
    {auth : MqttAuthority} (hfresh : auth.Fresh) (seen : γ → Seen)
    (hinner : ∀ group, inner auth group = auth.outcome (seen group))
    (hskips : ∀ group, skips group = true → seen group = none) (list : List γ) :
    groups skips inner auth list = auth.outcome (list.findSome? seen) := by
  induction list with
  | nil => rfl
  | cons group rest ih =>
      rw [groups, findSome?_cons, hinner]
      by_cases hskip : skips group = true
      · rw [if_pos hskip, hskips group hskip, ih]
      · rw [if_neg hskip]
        cases seen group with
        | none =>
            show (if auth.access.isSome && auth.authority.isSome then _ else _) = _
            rw [hfresh.1]
            exact ih
        | some found =>
            cases found with
            | ok found => simp [outcome, withFound]
            | error thrown => rfl

/-- The requests are answered one by one. -/
lemma requests_eq_ok {single : MqttAuthority → Except Thrown MqttAuthority}
    {auths : List MqttAuthority} (answer : MqttAuthority → MqttAuthority)
    (hsingle : ∀ auth ∈ auths, auth.qos ≠ MqttQoS.FAILURE → single auth = .ok (answer auth)) :
    requests single auths =
      .ok (auths.map fun auth => if auth.qos = MqttQoS.FAILURE then auth else answer auth) := by
  induction auths with
  | nil => rfl
  | cons auth auths ih =>
      rw [requests, ih fun a ha => hsingle a (mem_cons_of_mem _ ha), map_cons]
      by_cases hqos : auth.qos = MqttQoS.FAILURE
      · rw [if_pos hqos, if_pos hqos]
        rfl
      · rw [if_neg hqos, if_neg hqos, hsingle auth mem_cons_self hqos]
        rfl

/-- One request that throws ends the loop. -/
lemma requests_eq_error {single : MqttAuthority → Except Thrown MqttAuthority}
    {auths : List MqttAuthority} {auth : MqttAuthority} (hmem : auth ∈ auths)
    (hqos : auth.qos ≠ MqttQoS.FAILURE) {thrown : Thrown} (hthrown : single auth = .error thrown) :
    ∃ thrown', requests single auths = .error thrown' := by
  induction auths with
  | nil => cases hmem
  | cons first auths ih =>
      rw [requests]
      rcases mem_cons.1 hmem with rfl | hmem
      · exact ⟨thrown, by rw [if_neg hqos, hthrown]⟩
      · obtain ⟨thrown', hrest⟩ := ih hmem
        cases (if first.qos = MqttQoS.FAILURE then .ok first else single first :
            Except Thrown MqttAuthority) with
        | error thrown'' => exact ⟨thrown'', rfl⟩
        | ok first' => exact ⟨thrown', by rw [hrest]; rfl⟩

end AuthLoop

/-! ### The rules -/

/-- A row of MySQL, or an element of the topics of a MongoDB document. -/
structure StoredRule where
  topic : Option Str
  authority : Option Str
deriving DecidableEq

namespace StoredRule

def seen (topic : Str) (rule : StoredRule) : Seen :=
  if isMatchStored topic rule.topic then some (transformed rule.authority) else none

/-- A rule that is read from a reference, which may be null. -/
def seenAt (topic : Str) : Option StoredRule → Seen
  | none => some (.error .nullPointer)
  | some rule => rule.seen topic

end StoredRule

/-! ### Redis -/

/-- A reply to `hgetall`: the set of the fields of a hash and their values.  In what order the set
is iterated the library does not say, so `getKeys` can be any list without repetitions. -/
structure Response where
  getKeys : List Str
  nodup : getKeys.Nodup
  get : Str → Option Str

namespace RedisAuthService

/-- `auth`: the calls of the handler, with the reply to `hget`. -/
def auth (encryptBase64 : Str → Str) (username password : Option Str) (ar : AsyncResult Str) :
    List Bool :=
  if isBlank username || isBlank password then [false]
  else
    match ar with
    | .failed => [false]
    | .succeeded none => [] -- `ar.result().toString()`
    | .succeeded (some passwd) => [encryptBase64 (password.getD []) == passwd]

/-- The body of the loop over the keys of a hash. -/
def seen (topic : Str) (res : Response) (key : Str) : Seen :=
  if isMatch topic key then
    match res.get key with
    | none => some (.error .nullPointer)
    | some value => some (transformed (some value))
  else none

def loopKeys (auth : MqttAuthority) : Option Response → Except Thrown MqttAuthority
  | none => .error .nullPointer
  | some res => AuthLoop.rules (seen auth.topic res) auth res.getKeys

def setAuthority (auth : MqttAuthority) (rs : List (Option Response)) :
    Except Thrown MqttAuthority :=
  if rs.isEmpty then .ok auth else AuthLoop.groups (fun _ => false) loopKeys auth rs

def setAuthorities (auths : List MqttAuthority) (rs : List (Option Response)) :
    Except Thrown (List MqttAuthority) :=
  if rs.isEmpty then .ok auths else AuthLoop.requests (fun auth => setAuthority auth rs) auths

/-- The replies for the username, the address, the client and for all. -/
structure Futures where
  userFut : AsyncResult Response
  ipAddrFut : AsyncResult Response
  clientFut : AsyncResult Response
  allFut : AsyncResult Response

/-- `CompositeFuture.join`: the replies, if all of them succeeded. -/
def Futures.join : Futures → Option (List (Option Response))
  | ⟨.succeeded user, .succeeded ipAddr, .succeeded client, .succeeded all⟩ =>
      some [user, ipAddr, client, all]
  | _ => none

/-- `access` of one request: the calls of the handler. -/
def access (futs : Futures) (auth : MqttAuthority) : List MqttAuthority :=
  match futs.join with
  | none => [auth]
  | some rs => handlerCalls (setAuthority auth rs)

/-- `access` of a list of requests. -/
def accessList (futs : Futures) (auths : List MqttAuthority) : List (List MqttAuthority) :=
  match futs.join with
  | none => [auths]
  | some rs => handlerCalls (setAuthorities auths rs)

/-- The rules of a reply in the order of the loop; a null reply is like a null rule. -/
def rulesOf : Option Response → List (Option StoredRule)
  | none => [none]
  | some res => res.getKeys.map fun key => some ⟨some key, res.get key⟩

lemma loopKeys_eq (auth : MqttAuthority) (res : Option Response) :
    loopKeys auth res = auth.outcome ((rulesOf res).findSome? (StoredRule.seenAt auth.topic)) := by
  cases res with
  | none => rfl
  | some res =>
      rw [loopKeys, AuthLoop.rules_eq, rulesOf, findSome?_map]
      congr 2
      funext key
      simp only [Function.comp_apply, seen, StoredRule.seenAt, StoredRule.seen, isMatchStored]
      cases res.get key <;> rfl

lemma setAuthority_eq {auth : MqttAuthority} (hfresh : auth.Fresh) (rs : List (Option Response)) :
    setAuthority auth rs =
      auth.outcome ((rs.flatMap rulesOf).findSome? (StoredRule.seenAt auth.topic)) := by
  rw [AuthLoop.findSome?_flatMap]
  simp only [setAuthority]
  split_ifs with hempty
  · rw [isEmpty_iff.1 hempty]
    rfl
  · exact AuthLoop.groups_eq hfresh _ (loopKeys_eq auth) (fun _ h => by cases h) rs

lemma setAuthorities_eq (auths : List MqttAuthority) (rs : List (Option Response)) :
    setAuthorities auths rs = AuthLoop.requests (fun auth => setAuthority auth rs) auths := by
  simp only [setAuthorities]
  split_ifs with hempty
  · rw [AuthLoop.requests_eq_ok id fun auth _ _ => by rw [setAuthority, if_pos hempty]; rfl]
    simp
  · rfl

end RedisAuthService

/-! ### MySQL -/

namespace MySQLAuthService

/-- A null or empty row set is equal to no password; otherwise the first row decides. -/
def passwdEquals (enPasswd : Str) : Option (List (Option Str)) → Bool
  | none | some [] => false
  | some (qyPasswd :: _) => qyPasswd == some enPasswd

/-- `auth`: `onSuccess` and `onFailure` call the handler. -/
def auth (encryptBase64 : Str → Str) (username password : Option Str)
    (ar : AsyncResult (List (Option Str))) : List Bool :=
  if isBlank username || isBlank password then [false]
  else
    (match ar with
      | .failed => []
      | .succeeded rs => [passwdEquals (encryptBase64 (password.getD [])) rs]) ++
    (match ar with
      | .failed => [false]
      | .succeeded _ => [])

/-- The loop over a null row set throws. -/
def setAuthority (auth : MqttAuthority) : Option (List StoredRule) → Except Thrown MqttAuthority
  | none => .error .nullPointer
  | some rs => AuthLoop.rules (StoredRule.seen auth.topic) auth rs

/-- The variant for a list looks for a null row set; `rowCount` of a query is its number of rows. -/
def setAuthorities (auths : List MqttAuthority) :
    Option (List StoredRule) → Except Thrown (List MqttAuthority)
  | none => .ok auths
  | some rs =>
      if rs.length = 0 then .ok auths
      else AuthLoop.requests (fun auth => setAuthority auth (some rs)) auths

def access (ar : AsyncResult (List StoredRule)) (auth : MqttAuthority) : List MqttAuthority :=
  match ar with
  | .failed => [auth]
  | .succeeded rs => handlerCalls (setAuthority auth rs)

def accessList (ar : AsyncResult (List StoredRule)) (auths : List MqttAuthority) :
    List (List MqttAuthority) :=
  match ar with
  | .failed => [auths]
  | .succeeded rs => handlerCalls (setAuthorities auths rs)

lemma setAuthority_eq (auth : MqttAuthority) (rs : List StoredRule) :
    setAuthority auth (some rs) =
      auth.outcome ((rs.map some).findSome? (StoredRule.seenAt auth.topic)) := by
  rw [setAuthority, AuthLoop.rules_eq, findSome?_map]
  rfl

lemma setAuthorities_eq (auths : List MqttAuthority) (rs : List StoredRule) :
    setAuthorities auths (some rs) =
      AuthLoop.requests (fun auth => setAuthority auth (some rs)) auths := by
  unfold setAuthorities
  dsimp only
  split_ifs with hempty
  · rw [AuthLoop.requests_eq_ok id fun auth _ _ => by rw [length_eq_zero_iff.1 hempty]; rfl]
    simp
  · rfl

end MySQLAuthService

/-! ### MongoDB -/

/-- A document of rules; an element of its topics may be null. -/
structure Document where
  topics : Option (List (Option StoredRule))

namespace MongoDBAuthService

/-- There has to be one user. -/
def passwdEquals (enPasswd : Str) : Option (List (Option Str)) → Bool
  | some [qyPasswd] => qyPasswd == some enPasswd
  | _ => false

def auth (encryptBase64 : Str → Str) (username password : Option Str)
    (ar : AsyncResult (List (Option Str))) : List Bool :=
  if isBlank username || isBlank password then [false]
  else
    match ar with
    | .failed => [false]
    | .succeeded rs => [passwdEquals (encryptBase64 (password.getD [])) rs]

/-- `topics == null || topics.isEmpty()`. -/
def skips (res : Document) : Bool := (res.topics.getD []).isEmpty

def loopTopics (auth : MqttAuthority) (res : Document) : Except Thrown MqttAuthority :=
  AuthLoop.rules (StoredRule.seenAt auth.topic) auth (res.topics.getD [])

def setAuthority (auth : MqttAuthority) : Option (List Document) → Except Thrown MqttAuthority
  | none => .ok auth
  | some rs => if rs.isEmpty then .ok auth else AuthLoop.groups skips loopTopics auth rs

def setAuthorities (auths : List MqttAuthority) :
    Option (List Document) → Except Thrown (List MqttAuthority)
  | none => .ok auths
  | some rs =>
      if rs.isEmpty then .ok auths
      else AuthLoop.requests (fun auth => setAuthority auth (some rs)) auths

def access (ar : AsyncResult (List Document)) (auth : MqttAuthority) : List MqttAuthority :=
  match ar with
  | .failed => [auth]
  | .succeeded rs => handlerCalls (setAuthority auth rs)

def accessList (ar : AsyncResult (List Document)) (auths : List MqttAuthority) :
    List (List MqttAuthority) :=
  match ar with
  | .failed => [auths]
  | .succeeded rs => handlerCalls (setAuthorities auths rs)

def rulesOf (res : Document) : List (Option StoredRule) := res.topics.getD []

lemma setAuthority_eq {auth : MqttAuthority} (hfresh : auth.Fresh) (rs : List Document) :
    setAuthority auth (some rs) =
      auth.outcome ((rs.flatMap rulesOf).findSome? (StoredRule.seenAt auth.topic)) := by
  rw [AuthLoop.findSome?_flatMap]
  unfold setAuthority
  dsimp only
  split_ifs with hempty
  · rw [isEmpty_iff.1 hempty]
    rfl
  · refine AuthLoop.groups_eq hfresh (fun res => (rulesOf res).findSome? _)
      (fun res => AuthLoop.rules_eq _ auth _) (fun res h => ?_) rs
    rw [rulesOf, isEmpty_iff.1 h]
    rfl

lemma setAuthorities_eq (auths : List MqttAuthority) (rs : List Document) :
    setAuthorities auths (some rs) =
      AuthLoop.requests (fun auth => setAuthority auth (some rs)) auths := by
  unfold setAuthorities
  dsimp only
  split_ifs with hempty
  · rw [AuthLoop.requests_eq_ok id fun auth _ _ => by rw [setAuthority, if_pos hempty]; rfl]
    simp
  · rfl

end MongoDBAuthService

end Stuart
