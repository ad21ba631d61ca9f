/-
The local auth service, and which rule decides an access.

`access` hands the authority object of the request to `setAuthority`, which fills in access and
authority of the first rule of the client that matches the topic, whatever access that rule is
for; `canAccess` looks at the access kind afterwards.  So the decision is that of the matching
rule with the largest sequence number among the rules of all kinds (`canAccess_iff_first`): a
rule for the other access above a denying one lets the access through.
-/
import Stuart.Utils.AuthUtil
import Stuart.Entities.MqttMessage

namespace Stuart

open List Lib TopicUtil AuthUtil

namespace LocalAuthService

/-- The authority object with access and authority of a rule. -/
def withRule (auth : MqttAuthority) (acl : MqttAcl) : MqttAuthority :=
  { auth with
    access := Access.valueOf acl.access
    authority := Authority.valueOf acl.authority }

/-- `setAuthority`: the loop stops at the first rule that matches. -/
def setAuthority (auth : MqttAuthority) : List MqttAcl → MqttAuthority
  | [] => auth
  | acl :: acls =>
      if isMatch auth.topic acl.topic then withRule auth acl else setAuthority auth acls

/-- `access` of one request. -/
def access (s : AclCache) (client : MqttClient) (auth : MqttAuthority) : MqttAuthority :=
  setAuthority auth (s.get client)

/-- One request of a list; a request with the failure code is passed over. -/
def accessOne (s : AclCache) (client : MqttClient) (auth : MqttAuthority) : MqttAuthority :=
  if auth.qos = MqttQoS.FAILURE then auth else setAuthority auth (s.get client)

/-- `access` of a list of requests. -/
def accessList (s : AclCache) (client : MqttClient) (auths : List MqttAuthority) :
    List MqttAuthority := auths.map (accessOne s client)

/-- A rule targets the client and matches the topic. -/
def applies (client : MqttClient) (topic : Str) (acl : MqttAcl) : Bool :=
  acl.targets client && isMatch topic acl.topic

/-- The first rule of the client that matches the topic. -/
def firstMatch (s : AclCache) (client : MqttClient) (topic : Str) : Option MqttAcl :=
  (s.get client).find? fun acl => isMatch topic acl.topic

/-- A rule denies an access: it covers it and its authority is to deny. -/
def denies (access : Access) (acl : MqttAcl) : Prop :=
  covers (Access.valueOf acl.access) access ∧ Authority.valueOf acl.authority = some .deny

instance (access : Access) (acl : MqttAcl) : Decidable (denies access acl) :=
  inferInstanceAs (Decidable (_ ∧ _))

/-! ### The scan -/

lemma setAuthority_eq (auth : MqttAuthority) (acls : List MqttAcl) :
    setAuthority auth acls =
      match acls.find? fun acl => isMatch auth.topic acl.topic with
      | some acl => withRule auth acl
      | none => auth := by
  induction acls with
  | nil => rfl
  | cons acl acls ih =>
      rw [setAuthority, find?_cons]
      by_cases h : isMatch auth.topic acl.topic = true
      · simp [h]
      · simp [h, ih]

@[simp] lemma setAuthority_topic (auth : MqttAuthority) (acls : List MqttAcl) :
    (setAuthority auth acls).topic = auth.topic := by
  rw [setAuthority_eq]
  split <;> rfl

@[simp] lemma setAuthority_qos (auth : MqttAuthority) (acls : List MqttAcl) :
    (setAuthority auth acls).qos = auth.qos := by
  rw [setAuthority_eq]
  split <;> rfl

/-- The answer to a fresh request grants the access unless the first matching rule denies it. -/
lemma canAccess_setAuthority {s : AclCache} {client : MqttClient} {auth : MqttAuthority}
    (hauth : auth.access = none) (allowNomatch : Bool) {k : Access} (hk : k = .sub ∨ k = .pub) :
    canAccess allowNomatch k (some (setAuthority auth (s.get client))) = true ↔
      ∀ acl ∈ firstMatch s client auth.topic, ¬denies k acl := by
  rw [canAccess_some hk, setAuthority_eq]
  cases h : firstMatch s client auth.topic with
  | none =>
      have hfind : ((s.get client).find? fun acl => isMatch auth.topic acl.topic) = none := h
      rw [hfind]
      simp [covers, hauth]
  | some acl =>
      have hfind : ((s.get client).find? fun acl => isMatch auth.topic acl.topic) = some acl := h
      rw [hfind]
      simp [denies, withRule]

lemma canAccess_access (s : AclCache) (client : MqttClient) (topic : Str) (allowNomatch : Bool)
    {k : Access} (hk : k = .sub ∨ k = .pub) :
    canAccess allowNomatch k (some (access s client (.create topic))) = true ↔
      ∀ acl ∈ firstMatch s client topic, ¬denies k acl :=
  canAccess_setAuthority rfl allowNomatch hk

lemma firstMatch_eq_none_iff {s : AclCache} {client : MqttClient} {topic : Str} :
    firstMatch s client topic = none ↔
      ∀ acl ∈ s.cache.values, applies client topic acl = false := by
  simp only [firstMatch, find?_eq_none, AclCache.mem_get, applies]
  grind

/-- The first match applies, and no rule that applies has a larger sequence number. -/
lemma firstMatch_spec {s : AclCache} {client : MqttClient} {topic : Str} {acl : MqttAcl}
    (h : firstMatch s client topic = some acl) :
    acl ∈ s.cache.values ∧ applies client topic acl = true ∧
      ∀ other ∈ s.cache.values, applies client topic other = true → other.seq ≤ acl.seq := by
  have hmem := (s.mem_get client acl).1 (mem_of_find?_eq_some h)
  have hmatch : isMatch topic acl.topic = true := find?_eq_some_iff_append.1 h |>.1
  refine ⟨hmem.1, ?_, ?_⟩
  · simp [applies, hmem.2, hmatch]
  · intro other hother happ
    simp only [applies, Bool.and_eq_true] at happ
    exact AclCache.seq_le_of_find?_get h ((s.mem_get client other).2 ⟨hother, happ.1⟩) happ.2

/-! ### The rule that decides -/

/-- Some rule applies to the client and the topic.  Then the rule with the largest sequence
number among all that apply decides, whatever access it is for: an access is refused iff that
rule covers it and denies. -/
theorem canAccess_iff_first (s : AclCache) (client : MqttClient) (k : Access)
    (hk : k = .sub ∨ k = .pub) (topic : Str) (allowNomatch : Bool)
    (hrule : ∃ acl ∈ s.cache.values, applies client topic acl = true) :
    ∃ acl ∈ s.cache.values, applies client topic acl = true ∧
      (∀ other ∈ s.cache.values, applies client topic other = true → other.seq ≤ acl.seq) ∧
      (canAccess allowNomatch k (some (access s client (.create topic))) = true ↔
        ¬denies k acl) := by
  obtain ⟨rule, hrule, happ⟩ := hrule
  cases hfirst : firstMatch s client topic with
  | none =>
      -- some rule applies, so the scan does not come to its end
      have := firstMatch_eq_none_iff.1 hfirst rule hrule
      simp [happ] at this
  | some acl =>
      obtain ⟨hmem, hacl, hmax⟩ := firstMatch_spec hfirst
      refine ⟨acl, hmem, hacl, hmax, ?_⟩
      rw [canAccess_access s client topic allowNomatch hk, hfirst]
      simp

/-- A client without a username. -/
def sampleClient : MqttClient := ⟨none, ['8', '.', '8', '.', '8', '.', '8'], ['c']⟩

/-- The rules that are stored for a new broker. -/
theorem canAccess_iff_first_init :
    ∃ acl ∈ AclCache.empty.init.cache.values, applies sampleClient ['a'] acl = true ∧
      (∀ other ∈ AclCache.empty.init.cache.values, applies sampleClient ['a'] other = true →
        other.seq ≤ acl.seq) ∧
      (canAccess true .pub (some (access AclCache.empty.init sampleClient (.create ['a']))) =
        true ↔ ¬denies .pub acl) :=
  canAccess_iff_first AclCache.empty.init sampleClient .pub (Or.inr rfl) ['a'] true (by decide)

/-- A rule that allows to subscribe, above one that denies to publish. -/
def mixedRules : AclCache :=
  ((AclCache.empty.add ⟨0, AclConst.ALL, Target.all.value, ['a'], Access.pub.value,
    Authority.deny.value⟩).add ⟨0, AclConst.ALL, Target.all.value, ['a'], Access.sub.value,
    Authority.allow.value⟩)

/-- A rule does not decide an access that it covers when a rule for the other access stands above
it. -/
theorem not_canAccess_iff_covering :
    ¬∀ (s : AclCache) (client : MqttClient) (k : Access) (topic : Str) (allowNomatch : Bool),
      k = .sub ∨ k = .pub → ∀ acl ∈ s.cache.values, applies client topic acl = true →
        covers (Access.valueOf acl.access) k →
        (∀ other ∈ s.cache.values, applies client topic other = true →
          covers (Access.valueOf other.access) k → other.seq ≤ acl.seq) →
        (canAccess allowNomatch k (some (access s client (.create topic))) = true ↔
          Authority.valueOf acl.authority = some .allow) := by
  intro h
  have hpub := h mixedRules sampleClient .pub ['a'] true (Or.inr rfl)
    ⟨1, AclConst.ALL, Target.all.value, ['a'], Access.pub.value, Authority.deny.value⟩
    (by decide) (by decide) (by decide) (by decide)
  exact absurd hpub (by decide)

end LocalAuthService

end Stuart
