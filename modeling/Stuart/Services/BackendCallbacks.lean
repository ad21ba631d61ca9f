/-
Which callbacks of the external auth services answer.

Nothing catches an exception in the callback of a backend, and the handler is called at its end.
So a request is answered iff nothing on the way throws: for Redis a user that is not stored is null,
and with all three a rule that is the first one to match the topic has to be readable.  Then the
answer is the same as if the rules that cannot be read were not there (`answers_iff`).
-/
import Stuart.Services.RuleBackends

namespace Stuart

open List AuthUtil StringUtils MqttAuthority

namespace AuthCallbacks

/-- The loop ends at this rule: it matches, or it is null. -/
def stops (topic : Str) : Option StoredRule → Bool
  | none => true
  | some rule => isMatchStored topic rule.topic

def CanRead : Option StoredRule → Prop
  | none => False
  | some rule => Readable rule.authority

/-- The first rule that matches the topic can be read, and there is no null before it. -/
def FirstReadable (topic : Str) (rules : List (Option StoredRule)) : Prop :=
  ∀ rule ∈ rules.find? (stops topic), CanRead rule

/-- What a rule says of the topic if it matches and can be read. -/
def read (topic : Str) (rule : Option StoredRule) : Option (Access × Authority) :=
  match StoredRule.seenAt topic rule with
  | some (.ok found) => some found
  | _ => none

/-- The request after an evaluation that passes over what cannot be read. -/
def evaluate (rules : List (Option StoredRule)) (auth : MqttAuthority) : MqttAuthority :=
  match rules.findSome? (read auth.topic) with
  | none => auth
  | some found => auth.withFound found

def evaluateAll (rules : List (Option StoredRule)) (auths : List MqttAuthority) :
    List MqttAuthority :=
  auths.map fun auth => if auth.qos = MqttQoS.FAILURE then auth else evaluate rules auth

/-- Each request that is looked at finds a rule that can be read, or none. -/
def AllReadable (auths : List MqttAuthority) (rules : List (Option StoredRule)) : Prop :=
  ∀ auth ∈ auths, auth.qos ≠ MqttQoS.FAILURE → FirstReadable auth.topic rules

variable {topic : Str} {rules : List (Option StoredRule)} {auth : MqttAuthority}

/-! ### One rule -/

lemma seenAt_eq_none {rule : Option StoredRule} (h : stops topic rule = false) :
    StoredRule.seenAt topic rule = none := by
  cases rule with
  | none => cases h
  | some rule =>
      have hmatch : ¬isMatchStored topic rule.topic = true := by simpa [stops] using h
      exact if_neg hmatch

lemma seenAt_of_canRead {rule : Option StoredRule} (h : stops topic rule = true)
    (hread : CanRead rule) : ∃ found, StoredRule.seenAt topic rule = some (.ok found) := by
  cases rule with
  | none => exact hread.elim
  | some rule =>
      obtain ⟨found, hfound⟩ := readable_iff.1 hread
      have hseen : rule.seen topic = some (transformed rule.authority) := if_pos h
      exact ⟨found, hseen.trans (congrArg some hfound)⟩

lemma seenAt_of_not_canRead {rule : Option StoredRule} (h : stops topic rule = true)
    (hread : ¬CanRead rule) : ∃ thrown, StoredRule.seenAt topic rule = some (.error thrown) := by
  cases rule with
  | none => exact ⟨.nullPointer, rfl⟩
  | some rule =>
      have hseen : rule.seen topic = some (transformed rule.authority) := if_pos h
      cases htransformed : transformed rule.authority with
      | error thrown => exact ⟨thrown, hseen.trans (congrArg some htransformed)⟩
      | ok found => exact absurd (readable_iff.2 ⟨found, htransformed⟩) hread

/-! ### One request -/

lemma read_eq_none {front : List (Option StoredRule)}
    (h : ∀ rule ∈ front, stops topic rule = false) : front.findSome? (read topic) = none := by
  rw [findSome?_eq_none_iff]
  intro rule hmem
  rw [read, seenAt_eq_none (h rule hmem)]

lemma seen_eq_none {front : List (Option StoredRule)}
    (h : ∀ rule ∈ front, stops topic rule = false) :
    front.findSome? (StoredRule.seenAt topic) = none := by
  rw [findSome?_eq_none_iff]
  exact fun rule hmem => seenAt_eq_none (h rule hmem)

/-- If the first rule that matches can be read, the loops give what the evaluation gives. -/
lemma outcome_of_firstReadable (h : FirstReadable auth.topic rules) :
    auth.outcome (rules.findSome? (StoredRule.seenAt auth.topic)) = .ok (evaluate rules auth) := by
  cases hfind : rules.find? (stops auth.topic) with
  | none =>
      have hnone : ∀ rule ∈ rules, stops auth.topic rule = false := by simpa using hfind
      rw [seen_eq_none hnone, evaluate, read_eq_none hnone]
      rfl
  | some rule =>
      obtain ⟨hstops, front, back, rfl, hfront⟩ := find?_eq_some_iff_append.1 hfind
      have hfront' : ∀ r ∈ front, stops auth.topic r = false := fun r hr => by
        simpa using hfront r hr
      obtain ⟨found, hfound⟩ := seenAt_of_canRead hstops (h rule hfind)
      have hread : read auth.topic rule = some found := by rw [read, hfound]
      rw [evaluate, findSome?_append, findSome?_append, seen_eq_none hfront', read_eq_none hfront',
        findSome?_cons, findSome?_cons, hfound, hread]
      rfl

/-- Otherwise they throw. -/
lemma outcome_of_not_firstReadable (h : ¬FirstReadable auth.topic rules) :
    ∃ thrown, auth.outcome (rules.findSome? (StoredRule.seenAt auth.topic)) = .error thrown := by
  simp only [FirstReadable] at h
  push Not at h
  obtain ⟨rule, hfind, hread⟩ := h
  obtain ⟨hstops, front, back, rfl, hfront⟩ := find?_eq_some_iff_append.1 hfind
  have hfront' : ∀ r ∈ front, stops auth.topic r = false := fun r hr => by
    simpa using hfront r hr
  obtain ⟨thrown, hthrown⟩ := seenAt_of_not_canRead hstops hread
  refine ⟨thrown, ?_⟩
  rw [findSome?_append, seen_eq_none hfront', findSome?_cons, hthrown]
  rfl

/-! ### The calls of the handler -/

lemma handlerCalls_eq_iff {α : Type} {result : Except Thrown α} {answer : α} :
    handlerCalls result = [answer] ↔ result = .ok answer := by
  cases result <;> simp [handlerCalls]

lemma single_iff {result : Except Thrown MqttAuthority}
    (hresult : result = auth.outcome (rules.findSome? (StoredRule.seenAt auth.topic))) :
    handlerCalls result = [evaluate rules auth] ↔ FirstReadable auth.topic rules := by
  rw [handlerCalls_eq_iff, hresult]
  constructor
  · intro h
    by_contra hread
    obtain ⟨thrown, hthrown⟩ := outcome_of_not_firstReadable hread
    rw [hthrown] at h
    cases h
  · exact outcome_of_firstReadable

lemma requests_iff {single : MqttAuthority → Except Thrown MqttAuthority}
    {auths : List MqttAuthority} (hsingle : ∀ auth ∈ auths,
      single auth = auth.outcome (rules.findSome? (StoredRule.seenAt auth.topic))) :
    handlerCalls (AuthLoop.requests single auths) = [evaluateAll rules auths] ↔
      AllReadable auths rules := by
  rw [handlerCalls_eq_iff]
  constructor
  · intro h auth hmem hqos
    by_contra hread
    obtain ⟨thrown, hthrown⟩ := outcome_of_not_firstReadable hread
    obtain ⟨thrown', hrequests⟩ :=
      AuthLoop.requests_eq_error hmem hqos ((hsingle auth hmem).trans hthrown)
    rw [hrequests] at h
    cases h
  · intro h
    exact AuthLoop.requests_eq_ok (evaluate rules) fun auth hmem hqos =>
      (hsingle auth hmem).trans (outcome_of_firstReadable (h auth hmem hqos))

/-- Without rules nothing is filled in. -/
lemma evaluate_nil (auth : MqttAuthority) : evaluate [] auth = auth := rfl

lemma evaluateAll_nil (auths : List MqttAuthority) : evaluateAll [] auths = auths := by
  simp [evaluateAll, evaluate_nil]

lemma firstReadable_nil (topic : Str) : FirstReadable topic [] := fun rule h => by cases h

lemma allReadable_nil (auths : List MqttAuthority) : AllReadable auths [] :=
  fun auth _ _ => firstReadable_nil auth.topic

end AuthCallbacks

open AuthCallbacks

/-! ### The rules that a backend returns -/

namespace RedisAuthService

def rules (futs : Futures) : List (Option StoredRule) :=
  match futs.join with
  | none => []
  | some rs => rs.flatMap rulesOf

lemma access_iff (futs : Futures) {auth : MqttAuthority} (hfresh : auth.Fresh) :
    access futs auth = [evaluate (rules futs) auth] ↔ FirstReadable auth.topic (rules futs) := by
  simp only [access, rules]
  cases futs.join with
  | none => exact iff_of_true rfl (firstReadable_nil auth.topic)
  | some rs => exact single_iff (setAuthority_eq hfresh rs)

lemma accessList_iff (futs : Futures) {auths : List MqttAuthority}
    (hfresh : ∀ auth ∈ auths, auth.Fresh) :
    accessList futs auths = [evaluateAll (rules futs) auths] ↔ AllReadable auths (rules futs) := by
  simp only [accessList, rules]
  cases futs.join with
  | none => exact iff_of_true (by rw [evaluateAll_nil]) (allReadable_nil auths)
  | some rs =>
      dsimp only
      rw [setAuthorities_eq]
      exact requests_iff fun auth hmem => setAuthority_eq (hfresh auth hmem) rs

end RedisAuthService

namespace MySQLAuthService

def rules : AsyncResult (List StoredRule) → List (Option StoredRule)
  | .succeeded (some rs) => rs.map some
  | _ => []

/-- A row set that is null ends the loop over it. -/
lemma access_iff (ar : AsyncResult (List StoredRule)) (auth : MqttAuthority) :
    access ar auth = [evaluate (rules ar) auth] ↔
      ar ≠ .succeeded none ∧ FirstReadable auth.topic (rules ar) := by
  match ar with
  | .failed => exact iff_of_true rfl ⟨by simp, firstReadable_nil auth.topic⟩
  | .succeeded none => exact iff_of_false (by simp [access, setAuthority, handlerCalls]) (by simp)
  | .succeeded (some rs) =>
      exact (single_iff (setAuthority_eq auth rs)).trans ⟨fun h => ⟨by simp, h⟩, fun h => h.2⟩

lemma accessList_iff (ar : AsyncResult (List StoredRule)) (auths : List MqttAuthority) :
    accessList ar auths = [evaluateAll (rules ar) auths] ↔ AllReadable auths (rules ar) := by
  match ar with
  | .failed | .succeeded none =>
      exact iff_of_true (congrArg (fun answer => [answer]) (evaluateAll_nil auths).symm)
        (allReadable_nil auths)
  | .succeeded (some rs) =>
      unfold accessList
      dsimp only
      rw [setAuthorities_eq]
      exact requests_iff fun auth _ => setAuthority_eq auth rs

end MySQLAuthService

namespace MongoDBAuthService

def rules : AsyncResult (List Document) → List (Option StoredRule)
  | .succeeded (some rs) => rs.flatMap rulesOf
  | _ => []

lemma access_iff (ar : AsyncResult (List Document)) {auth : MqttAuthority} (hfresh : auth.Fresh) :
    access ar auth = [evaluate (rules ar) auth] ↔ FirstReadable auth.topic (rules ar) := by
  match ar with
  | .failed | .succeeded none => exact iff_of_true rfl (firstReadable_nil auth.topic)
  | .succeeded (some rs) => exact single_iff (setAuthority_eq hfresh rs)

lemma accessList_iff (ar : AsyncResult (List Document)) {auths : List MqttAuthority}
    (hfresh : ∀ auth ∈ auths, auth.Fresh) :
    accessList ar auths = [evaluateAll (rules ar) auths] ↔ AllReadable auths (rules ar) := by
  match ar with
  | .failed | .succeeded none =>
      exact iff_of_true (congrArg (fun answer => [answer]) (evaluateAll_nil auths).symm)
        (allReadable_nil auths)
  | .succeeded (some rs) =>
      unfold accessList
      dsimp only
      rw [setAuthorities_eq]
      exact requests_iff fun auth hmem => setAuthority_eq (hfresh auth hmem) rs

end MongoDBAuthService

namespace AuthCallbacks

/-- Redis is asked for the password, and the user is not there. -/
def MissingUser (username password : Option Str) (ar : AsyncResult Str) : Prop :=
  isBlank username = false ∧ isBlank password = false ∧ ar = .succeeded none

lemma redis_auth_iff (encryptBase64 : Str → Str) (username password : Option Str)
    (ar : AsyncResult Str) :
    (∃ res, RedisAuthService.auth encryptBase64 username password ar = [res]) ↔
      ¬MissingUser username password ar := by
  simp only [RedisAuthService.auth, MissingUser]
  split_ifs with hblank
  · refine iff_of_true ⟨false, rfl⟩ ?_
    rintro ⟨husername, hpassword, -⟩
    simp [husername, hpassword] at hblank
  · have hboth : isBlank username = false ∧ isBlank password = false := by simpa using hblank
    match ar with
    | .failed => exact iff_of_true ⟨false, rfl⟩ (by simp)
    | .succeeded none => exact iff_of_false (by simp) (by simp [hboth])
    | .succeeded (some passwd) => exact iff_of_true ⟨_, rfl⟩ (by simp)

/-- MySQL and MongoDB always answer a login, and Redis unless the user is not there.  A request for
access is answered, as if the rules that cannot be read were not there, iff the first rule that
matches each topic can be read; MySQL also needs a row set for a single request. -/
theorem answers_iff (encryptBase64 : Str → Str) (username password : Option Str) :
    (∀ ar, (∃ res, RedisAuthService.auth encryptBase64 username password ar = [res]) ↔
        ¬MissingUser username password ar) ∧
      (∀ ar, ∃ res, MySQLAuthService.auth encryptBase64 username password ar = [res]) ∧
      (∀ ar, ∃ res, MongoDBAuthService.auth encryptBase64 username password ar = [res]) ∧
      ∀ (futs : RedisAuthService.Futures) (rows : AsyncResult (List StoredRule))
        (docs : AsyncResult (List Document)),
        (∀ auth : MqttAuthority, auth.Fresh →
          (RedisAuthService.access futs auth = [evaluate (RedisAuthService.rules futs) auth] ↔
            FirstReadable auth.topic (RedisAuthService.rules futs)) ∧
          (MySQLAuthService.access rows auth = [evaluate (MySQLAuthService.rules rows) auth] ↔
            rows ≠ .succeeded none ∧ FirstReadable auth.topic (MySQLAuthService.rules rows)) ∧
          (MongoDBAuthService.access docs auth = [evaluate (MongoDBAuthService.rules docs) auth] ↔
            FirstReadable auth.topic (MongoDBAuthService.rules docs))) ∧
        ∀ auths : List MqttAuthority, (∀ auth ∈ auths, auth.Fresh) →
          (RedisAuthService.accessList futs auths =
              [evaluateAll (RedisAuthService.rules futs) auths] ↔
            AllReadable auths (RedisAuthService.rules futs)) ∧
          (MySQLAuthService.accessList rows auths =
              [evaluateAll (MySQLAuthService.rules rows) auths] ↔
            AllReadable auths (MySQLAuthService.rules rows)) ∧
          (MongoDBAuthService.accessList docs auths =
              [evaluateAll (MongoDBAuthService.rules docs) auths] ↔
            AllReadable auths (MongoDBAuthService.rules docs)) := by
  refine ⟨redis_auth_iff encryptBase64 username password, fun ar => ?_, fun ar => ?_,
    fun futs rows docs => ⟨fun auth hfresh => ⟨RedisAuthService.access_iff futs hfresh,
      MySQLAuthService.access_iff rows auth, MongoDBAuthService.access_iff docs hfresh⟩,
      fun auths hfresh => ⟨RedisAuthService.accessList_iff futs hfresh,
        MySQLAuthService.accessList_iff rows auths,
        MongoDBAuthService.accessList_iff docs hfresh⟩⟩⟩
  · simp only [MySQLAuthService.auth]
    split_ifs
    · exact ⟨false, rfl⟩
    · cases ar <;> exact ⟨_, rfl⟩
  · simp only [MongoDBAuthService.auth]
    split_ifs
    · exact ⟨false, rfl⟩
    · cases ar <;> exact ⟨_, rfl⟩

/-- A rule for all topics under `a`, with the authority but not the access. -/
def partialRule : StoredRule := ⟨some ['a', '/', '#'], some ['a', 'l', 'l', 'o', 'w']⟩

def sampleRequest (topic : Str) : MqttAuthority := .create topic

/-- The rule does not stop a request that it does not match. -/
theorem answers_iff_partial :
    MySQLAuthService.access (.succeeded (some [partialRule])) (sampleRequest ['b']) =
      [sampleRequest ['b']] := by
  obtain ⟨-, -, -, haccess⟩ := answers_iff id none none
  have hone := (haccess ⟨.failed, .failed, .failed, .failed⟩ (.succeeded (some [partialRule]))
    .failed).1 (sampleRequest ['b']) ⟨rfl, rfl⟩
  have hnone : [some partialRule].find? (stops ['b']) = none := by decide
  refine hone.2.1.2 ⟨by simp, fun rule hrule => ?_⟩
  exact absurd (hnone.symm.trans hrule) (by simp)

/-- A login with Redis of a user that is not there is not answered, and neither is a request that
the rule matches, with MySQL and MongoDB. -/
theorem not_answers :
    (¬∀ (username password : Option Str) (ar : AsyncResult Str),
      ∃ res, RedisAuthService.auth id username password ar = [res]) ∧
    (¬∀ (rows : AsyncResult (List StoredRule)) (auth : MqttAuthority), auth.Fresh →
      ∃ answer, MySQLAuthService.access rows auth = [answer]) ∧
    ¬∀ (docs : AsyncResult (List Document)) (auth : MqttAuthority), auth.Fresh →
      ∃ answer, MongoDBAuthService.access docs auth = [answer] := by
  refine ⟨fun h => ?_, fun h => ?_, fun h => ?_⟩
  · obtain ⟨res, hres⟩ := h (some ['u']) (some ['p']) (.succeeded none)
    exact absurd hres (by simp [RedisAuthService.auth, isBlank, isWhitespace])
  · obtain ⟨answer, hanswer⟩ := h (.succeeded (some [partialRule])) (sampleRequest ['a']) ⟨rfl, rfl⟩
    have hnone : MySQLAuthService.access (.succeeded (some [partialRule]))
      (sampleRequest ['a']) = [] := by decide
    rw [hnone] at hanswer
    cases hanswer
  · obtain ⟨answer, hanswer⟩ := h (.succeeded (some [⟨some [some partialRule]⟩]))
      (sampleRequest ['a']) ⟨rfl, rfl⟩
    have hnone : MongoDBAuthService.access (.succeeded (some [⟨some [some partialRule]⟩]))
      (sampleRequest ['a']) = [] := by decide
    rw [hnone] at hanswer
    cases hanswer

end AuthCallbacks

end Stuart
