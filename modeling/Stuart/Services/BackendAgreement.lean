/-
The rule lists of all backends decide alike.

A list of well-formed rules can be kept as the local rules, as rows of MySQL, in MongoDB documents
or in Redis hashes; documents and hashes hold consecutive rules in groups of any size, also empty
ones.  The first rule that matches decides with each of them (`firstMatch`), and a list of requests
is answered one by one; only one with the failure code is left as it is (`backends_agree`).

A hash has no order of its own: its rules are looked at in the order in which the set of its keys
is iterated.  What the hashes have to give is that of two rules of one hash that both match the
topic and say something else the first one comes first (`InOrder`).
-/
import Mathlib.Data.List.Perm.Basic
import Stuart.Services.RuleBackends
import Stuart.Services.LocalAuthService

namespace Stuart

open List AuthUtil MqttAuthority

/-- A well-formed rule. -/
structure Rule where
  topic : Str
  access : Access
  authority : Authority
deriving DecidableEq

namespace Rule

def decision (rule : Rule) : Access × Authority := (rule.access, rule.authority)

/-- What the list of rules is for: the first rule that matches the topic. -/
def firstMatch (rules : List Rule) (topic : Str) : Option Rule :=
  rules.find? fun rule => isMatch topic rule.topic

def answer (rules : List Rule) (auth : MqttAuthority) : MqttAuthority :=
  match firstMatch rules auth.topic with
  | none => auth
  | some rule => auth.withFound (rule.access, rule.authority)

/-- The local rule has these values. -/
def KeptAs (rule : Rule) (acl : MqttAcl) : Prop :=
  acl.topic = rule.topic ∧ acl.access = rule.access.value ∧ acl.authority = rule.authority.value

/-- The stored rule is not null and has these values; its text need not be in lower case. -/
def StoredAs (rule : Rule) (stored : Option StoredRule) : Prop :=
  ∃ r, stored = some r ∧ r.topic = some rule.topic ∧
    WellFormed r.authority rule.access rule.authority

/-- The groups are kept one by one. -/
def GroupedAs (groups : List (List Rule)) (docs : List Document) : Prop :=
  Forall₂ (fun group doc => Forall₂ StoredAs group (MongoDBAuthService.rulesOf doc)) groups docs

/-- The rules of the group are the fields of the hash, in whatever order. -/
def HashedAs (group : List Rule) (reply : Option Response) : Prop :=
  ∃ res, reply = some res ∧ res.getKeys ~ group.map Rule.topic ∧
    ∀ rule ∈ group, WellFormed (res.get rule.topic) rule.access rule.authority

/-- Of two rules of a hash that match the topic and differ the first one is also the first in the
iteration over the keys. -/
def InOrder (topic : Str) (group : List Rule) (reply : Option Response) : Prop :=
  ∀ res, reply = some res → group.Pairwise fun rule later =>
    isMatch topic rule.topic = true → isMatch topic later.topic = true →
      rule.decision ≠ later.decision →
        res.getKeys.idxOf rule.topic < res.getKeys.idxOf later.topic

variable {rules : List Rule} {auth : MqttAuthority}

lemma seenAt_of_storedAs {rule : Rule} {stored : Option StoredRule} (h : rule.StoredAs stored)
    (topic : Str) : StoredRule.seenAt topic stored =
      if isMatch topic rule.topic then some (.ok (rule.access, rule.authority)) else none := by
  obtain ⟨r, rfl, htopic, hvalue⟩ := h
  rw [StoredRule.seenAt, StoredRule.seen, htopic, isMatchStored, transformed_eq_ok_iff.2 hvalue]

/-- One loop over all stored rules gives what the first match says. -/
lemma outcome_of_storedAs {stored : List (Option StoredRule)} (h : Forall₂ StoredAs rules stored)
    (auth : MqttAuthority) :
    auth.outcome (stored.findSome? (StoredRule.seenAt auth.topic)) = .ok (answer rules auth) := by
  induction h with
  | nil => rfl
  | cons hrule hrest ih =>
      rename_i rule s rules rest
      rw [findSome?_cons, seenAt_of_storedAs hrule, answer, firstMatch, find?_cons]
      by_cases hmatch : isMatch auth.topic rule.topic = true
      · rw [if_pos hmatch, hmatch]
        rfl
      · have hfalse : isMatch auth.topic rule.topic = false := by simpa using hmatch
        rw [if_neg hmatch, hfalse]
        exact ih

lemma flatMap_of_groupedAs {groups : List (List Rule)} {docs : List Document}
    (h : GroupedAs groups docs) :
    Forall₂ StoredAs groups.flatten (docs.flatMap MongoDBAuthService.rulesOf) := by
  rw [flatMap_def]
  exact rel_flatten (forall₂_map_right_iff.2 h)

/-! ### The order in a hash -/

lemma answer_eq (rules : List Rule) (auth : MqttAuthority) :
    answer rules auth = ((firstMatch rules auth.topic).map decision).elim auth auth.withFound := by
  rw [answer]
  cases firstMatch rules auth.topic <;> rfl

/-- The rules of the hash in the order in which they are looked at. -/
lemma HashedAs.exists_perm {group : List Rule} {reply : Option Response}
    (h : HashedAs group reply) : ∃ iterated : List Rule, iterated ~ group ∧
      Forall₂ StoredAs iterated (RedisAuthService.rulesOf reply) ∧
        ∀ res, reply = some res → res.getKeys = iterated.map Rule.topic := by
  obtain ⟨res, rfl, hkeys, hstored⟩ := h
  obtain ⟨iterated, hiterated, hperm⟩ : (Relation.Comp
      (Forall₂ fun (key : Str) (rule : Rule) => key = rule.topic) Perm) res.getKeys group :=
    perm_comp_forall₂ hkeys (forall₂_map_left_iff.2 (forall₂_same.2 fun rule _ => rfl))
  have htopics : res.getKeys = iterated.map Rule.topic := by
    rw [← forall₂_eq_eq_eq, forall₂_map_right_iff]
    exact hiterated
  refine ⟨iterated, hperm, ?_, ?_⟩
  · rw [RedisAuthService.rulesOf, htopics, map_map, forall₂_map_right_iff, forall₂_same]
    exact fun rule hmem => ⟨_, rfl, rfl, hstored rule (hperm.subset hmem)⟩
  · rintro _ ⟨⟩
    exact htopics

/-- The first match in the order of the iteration says what the first match in the order of the
rules says: otherwise the latter would have been met before. -/
lemma firstMatch_of_perm {group iterated : List Rule} {topic : Str} (hperm : iterated ~ group)
    (hnodup : (iterated.map Rule.topic).Nodup)
    (horder : group.Pairwise fun rule later =>
      isMatch topic rule.topic = true → isMatch topic later.topic = true →
        rule.decision ≠ later.decision → (iterated.map Rule.topic).idxOf rule.topic <
          (iterated.map Rule.topic).idxOf later.topic) :
    (firstMatch iterated topic).map decision = (firstMatch group topic).map decision := by
  simp only [firstMatch]
  cases hmet : iterated.find? fun rule => isMatch topic rule.topic with
  | none =>
      have hnone : group.find? (fun rule => isMatch topic rule.topic) = none :=
        find?_eq_none.2 fun rule hmem => find?_eq_none.1 hmet rule (hperm.symm.subset hmem)
      rw [hnone]
  | some met =>
      obtain ⟨hmatch, as, bs, hiterated, has⟩ := find?_eq_some_iff_append.1 hmet
      cases hfirst : group.find? fun rule => isMatch topic rule.topic with
      | none =>
          exact absurd hmatch (find?_eq_none.1 hfirst met (hperm.subset (mem_of_find?_eq_some hmet)))
      | some first =>
          obtain ⟨hfirstMatch, cs, ds, rfl, hcs⟩ := find?_eq_some_iff_append.1 hfirst
          by_contra hne
          have hdiffer : first.decision ≠ met.decision := fun heq => hne (congrArg some heq.symm)
          -- the rule that is met comes later in the group
          have hlater : met ∈ ds := by
            rcases mem_append.1 (hperm.subset (mem_of_find?_eq_some hmet)) with hmem | hmem
            · exact absurd hmatch (by simpa using hcs met hmem)
            · exact (mem_cons.1 hmem).resolve_left fun heq => hdiffer (by rw [heq])
          have hbefore := (rel_of_pairwise_cons (pairwise_append.1 horder).2.1 hlater) hfirstMatch
            hmatch hdiffer
          -- but nothing before it matches
          have hfirstMem : first ∈ bs := by
            have hmem : first ∈ iterated := hperm.symm.subset (mem_append_right _ mem_cons_self)
            rw [hiterated] at hmem
            rcases mem_append.1 hmem with hmem | hmem
            · exact absurd hfirstMatch (by simpa using has first hmem)
            · exact (mem_cons.1 hmem).resolve_left fun heq => hdiffer (by rw [heq])
          have hnot : first.topic ∉ (as.map Rule.topic ++ [met.topic]) := by
            rw [hiterated, map_append, map_cons, ← singleton_append, ← append_assoc] at hnodup
            exact fun hmem => (nodup_append.1 hnodup).2.2 _ hmem _ (mem_map_of_mem hfirstMem) rfl
          rw [hiterated, map_append, map_cons, ← singleton_append, ← append_assoc,
            idxOf_append_of_mem (mem_append_right _ mem_cons_self),
            idxOf_append_of_notMem hnot] at hbefore
          have hlt : (as.map Rule.topic ++ [met.topic]).idxOf met.topic <
              (as.map Rule.topic ++ [met.topic]).length :=
            idxOf_lt_length_iff.2 (mem_append_right _ mem_cons_self)
          omega

/-- The rules of all hashes as they are looked at, group by group. -/
lemma exists_iterated {groups : List (List Rule)} {replies : List (Option Response)}
    (h : Forall₂ HashedAs groups replies) : ∃ iterated : List Rule,
      Forall₂ StoredAs iterated (replies.flatMap RedisAuthService.rulesOf) ∧
        ∀ topic, Forall₂ (InOrder topic) groups replies →
          (firstMatch iterated topic).map decision =
            (firstMatch groups.flatten topic).map decision := by
  induction h with
  | nil => exact ⟨[], .nil, fun _ _ => rfl⟩
  | cons hhash _ ih =>
      obtain ⟨rest, hstored, hsame⟩ := ih
      obtain ⟨iterated, hperm, hhashed, hkeys⟩ := hhash.exists_perm
      refine ⟨iterated ++ rest, rel_append hhashed hstored, fun topic horder => ?_⟩
      obtain ⟨hfirst, hrest⟩ := forall₂_cons.1 horder
      obtain ⟨res, rfl, -⟩ := hhash
      have hgroup := firstMatch_of_perm hperm (hkeys res rfl ▸ res.nodup)
        (hkeys res rfl ▸ hfirst res rfl)
      have hgroups := hsame topic hrest
      simp only [firstMatch, flatten_cons, find?_append, Option.map_or] at hgroup hgroups ⊢
      rw [hgroup, hgroups]

lemma setAuthority_of_keptAs {acls : List MqttAcl} (h : Forall₂ KeptAs rules acls)
    (auth : MqttAuthority) : LocalAuthService.setAuthority auth acls = answer rules auth := by
  induction h with
  | nil => rfl
  | cons hrule hrest ih =>
      rename_i rule acl rules acls
      obtain ⟨htopic, haccess, hauthority⟩ := hrule
      rw [LocalAuthService.setAuthority, htopic, answer, firstMatch, find?_cons]
      by_cases hmatch : isMatch auth.topic rule.topic = true
      · rw [if_pos hmatch, hmatch, LocalAuthService.withRule, haccess, hauthority,
          Access.valueOf_value, Authority.valueOf_value]
        rfl
      · have hfalse : isMatch auth.topic rule.topic = false := by simpa using hmatch
        rw [if_neg hmatch, hfalse]
        exact ih

/-- A list of requests, with those that have the failure code left alone. -/
def each (single : MqttAuthority → MqttAuthority) (auths : List MqttAuthority) :
    List MqttAuthority :=
  auths.map fun auth => if auth.qos = MqttQoS.FAILURE then auth else single auth

end Rule

open Rule

/-- The four services give the same answer to a new request, and to a list of them: Redis where the
iteration over the keys of each hash is in order. -/
theorem backends_agree (rules : List Rule) {acls : List MqttAcl} {rows : List StoredRule}
    {groups groups' : List (List Rule)} {docs : List Document} {replies : List (Option Response)}
    (hacls : Forall₂ KeptAs rules acls) (hrows : Forall₂ StoredAs rules (rows.map some))
    (hgroups : groups.flatten = rules) (hdocs : GroupedAs groups docs)
    (hgroups' : groups'.flatten = rules) (hreplies : Forall₂ HashedAs groups' replies) :
    (∀ auth : MqttAuthority, auth.Fresh →
      MongoDBAuthService.setAuthority auth (some docs) =
          .ok (LocalAuthService.setAuthority auth acls) ∧
        MySQLAuthService.setAuthority auth (some rows) =
          .ok (LocalAuthService.setAuthority auth acls)) ∧
    (∀ auths : List MqttAuthority, (∀ auth ∈ auths, auth.Fresh) →
      MongoDBAuthService.setAuthorities auths (some docs) =
          .ok (each (fun auth => LocalAuthService.setAuthority auth acls) auths) ∧
        MySQLAuthService.setAuthorities auths (some rows) =
          .ok (each (fun auth => LocalAuthService.setAuthority auth acls) auths) ∧
        ∀ s client, LocalAuthService.accessList s client auths =
          each (LocalAuthService.access s client) auths) ∧
    ∃ single : MqttAuthority → MqttAuthority,
      (∀ auth, auth.Fresh → RedisAuthService.setAuthority auth replies = .ok (single auth)) ∧
        (∀ auths : List MqttAuthority, (∀ auth ∈ auths, auth.Fresh) →
          RedisAuthService.setAuthorities auths replies = .ok (each single auths)) ∧
        ∀ auth, Forall₂ (InOrder auth.topic) groups' replies →
          single auth = LocalAuthService.setAuthority auth acls := by
  have hdocs' := flatMap_of_groupedAs hdocs
  obtain ⟨iterated, hiterated, hsame⟩ := exists_iterated hreplies
  rw [hgroups] at hdocs'
  rw [hgroups'] at hsame
  have hsingle : ∀ auth : MqttAuthority, auth.Fresh →
      MongoDBAuthService.setAuthority auth (some docs) =
          .ok (LocalAuthService.setAuthority auth acls) ∧
        MySQLAuthService.setAuthority auth (some rows) =
          .ok (LocalAuthService.setAuthority auth acls) := by
    intro auth hfresh
    rw [setAuthority_of_keptAs hacls, MongoDBAuthService.setAuthority_eq hfresh,
      MySQLAuthService.setAuthority_eq]
    exact ⟨outcome_of_storedAs hdocs' auth, outcome_of_storedAs hrows auth⟩
  have hredis : ∀ auth : MqttAuthority, auth.Fresh →
      RedisAuthService.setAuthority auth replies = .ok (answer iterated auth) := by
    intro auth hfresh
    rw [RedisAuthService.setAuthority_eq hfresh]
    exact outcome_of_storedAs hiterated auth
  refine ⟨hsingle, fun auths hfresh => ⟨?_, ?_, fun s client => rfl⟩, answer iterated, hredis,
    fun auths hfresh => ?_, fun auth horder => ?_⟩
  · rw [MongoDBAuthService.setAuthorities_eq]
    exact AuthLoop.requests_eq_ok _ fun auth hmem _ => (hsingle auth (hfresh auth hmem)).1
  · rw [MySQLAuthService.setAuthorities_eq]
    exact AuthLoop.requests_eq_ok _ fun auth hmem _ => (hsingle auth (hfresh auth hmem)).2
  · rw [RedisAuthService.setAuthorities_eq]
    exact AuthLoop.requests_eq_ok _ fun auth hmem _ => hredis auth (hfresh auth hmem)
  · rw [setAuthority_of_keptAs hacls, answer_eq, answer_eq, hsame auth.topic horder]

namespace Rule

/-- A topic that is denied under a prefix that is allowed. -/
def sampleRules : List Rule :=
  [⟨['a', '/', 'b'], .sub, .deny⟩, ⟨['a', '/', '#'], .subPub, .allow⟩]

def denyText : Str := ['S', 'u', 'b', '|', 'd', 'e', 'n', 'y']

def allowText : Str := ['s', 'u', 'b', 'p', 'u', 'b', '|', 'a', 'l', 'l', 'o', 'w']

def sampleRows : List StoredRule :=
  [⟨some ['a', '/', 'b'], some denyText⟩, ⟨some ['a', '/', '#'], some allowText⟩]

/-- One document for each rule, and an empty one between them. -/
def sampleDocs : List Document :=
  [⟨some [some ⟨some ['a', '/', 'b'], some denyText⟩]⟩, ⟨none⟩,
    ⟨some [some ⟨some ['a', '/', '#'], some allowText⟩]⟩]

def sampleValue (key : Str) : Option Str := if key = ['a', '/', 'b'] then denyText else allowText

/-- Both rules in one hash, which is iterated in this order. -/
def sampleReplies (keys : List Str) (hnodup : keys.Nodup) : List (Option Response) :=
  [some ⟨[], by decide, fun _ => none⟩, some ⟨keys, hnodup, sampleValue⟩]

def sampleAcls : List MqttAcl :=
  [⟨2, AclConst.ALL, Target.all.value, ['a', '/', 'b'], Access.sub.value, Authority.deny.value⟩,
    ⟨1, AclConst.ALL, Target.all.value, ['a', '/', '#'], Access.subPub.value,
      Authority.allow.value⟩]

lemma storedAs_sampleRows : Forall₂ StoredAs sampleRules (sampleRows.map some) := by
  refine .cons ⟨_, rfl, rfl, ?_⟩ (.cons ⟨_, rfl, rfl, ?_⟩ .nil)
  · exact transformed_eq_ok_iff.1 (by decide)
  · exact transformed_eq_ok_iff.1 (by decide)

lemma hashedAs_sampleReplies {keys : List Str} (hnodup : keys.Nodup)
    (hperm : keys ~ [['a', '/', 'b'], ['a', '/', '#']]) :
    Forall₂ HashedAs [[], sampleRules] (sampleReplies keys hnodup) := by
  refine .cons ⟨_, rfl, .nil, nofun⟩ (.cons ⟨_, rfl, hperm, fun rule hmem => ?_⟩ .nil)
  rcases mem_pair.1 hmem with rfl | rfl
  · exact transformed_eq_ok_iff.1
      (by decide : transformed (sampleValue ['a', '/', 'b']) = .ok (.sub, .deny))
  · exact transformed_eq_ok_iff.1
      (by decide : transformed (sampleValue ['a', '/', '#']) = .ok (.subPub, .allow))

end Rule

theorem backends_agree_sample :
    MongoDBAuthService.setAuthority (.create ['a', '/', 'b']) (some sampleDocs) =
      .ok (LocalAuthService.setAuthority (.create ['a', '/', 'b']) sampleAcls) ∧
    RedisAuthService.setAuthority (.create ['a', '/', 'b'])
        (sampleReplies [['a', '/', 'b'], ['a', '/', '#']] (by decide)) =
      .ok (LocalAuthService.setAuthority (.create ['a', '/', 'b']) sampleAcls) := by
  have hrows := storedAs_sampleRows
  obtain ⟨hsingle, -, single, hredis, -, horder⟩ := @backends_agree sampleRules sampleAcls
    sampleRows [[⟨['a', '/', 'b'], .sub, .deny⟩], [], [⟨['a', '/', '#'], .subPub, .allow⟩]]
    [[], sampleRules] sampleDocs (sampleReplies [['a', '/', 'b'], ['a', '/', '#']] (by decide))
    (.cons ⟨rfl, rfl, rfl⟩ (.cons ⟨rfl, rfl, rfl⟩ .nil)) hrows rfl
    (by
      cases hrows with
      | cons hfirst hrest =>
          exact .cons (.cons hfirst .nil) (.cons .nil (.cons hrest .nil)))
    rfl (hashedAs_sampleReplies (by decide) (.refl _))
  refine ⟨(hsingle (.create ['a', '/', 'b']) ⟨rfl, rfl⟩).1, ?_⟩
  rw [hredis _ ⟨rfl, rfl⟩, horder]
  refine .cons ?_ (.cons ?_ .nil)
  · exact fun res _ => Pairwise.nil
  · rintro _ ⟨⟩
    decide

/-- A filter that is not valid has the failure code in the list of a SUBSCRIBE, and a single request
for it is filled in.  And a hash whose keys are iterated from the last rule to the first one gives
the answer of the last rule. -/
theorem not_backends_agree :
    (¬∀ (s : AclCache) (client : MqttClient) (auths : List MqttAuthority),
      (∀ auth ∈ auths, auth.Fresh) →
      LocalAuthService.accessList s client auths =
        auths.map (LocalAuthService.access s client)) ∧
    ¬∀ (rules : List Rule) (acls : List MqttAcl) (groups : List (List Rule))
      (replies : List (Option Response)) (auth : MqttAuthority), auth.Fresh →
      Forall₂ KeptAs rules acls → groups.flatten = rules → Forall₂ HashedAs groups replies →
      RedisAuthService.setAuthority auth replies =
        .ok (LocalAuthService.setAuthority auth acls) := by
  refine ⟨fun h => ?_, fun h => ?_⟩
  · have hlist := h AclCache.empty.init LocalAuthService.sampleClient
      [(MqttAuthority.create ['a', '#']).setQos MqttQoS.FAILURE] fun auth hmem => by
        obtain rfl := mem_singleton.1 hmem
        exact ⟨rfl, rfl⟩
    exact absurd hlist (by decide)
  · have hredis := h sampleRules sampleAcls [[], sampleRules]
      (sampleReplies [['a', '/', '#'], ['a', '/', 'b']] (by decide)) (.create ['a', '/', 'b'])
      ⟨rfl, rfl⟩ (.cons ⟨rfl, rfl, rfl⟩ (.cons ⟨rfl, rfl, rfl⟩ .nil)) rfl
      (hashedAs_sampleReplies (by decide) (.swap _ _ _))
    exact absurd hredis (by decide)

end Stuart
