/-
The stored rules with all their fields, and the requests of the admin console that change them.

`add` numbers a rule by the sequence, and `update` takes account and time of the creation from the
old rule.  `reorder` puts the rows of the request as they are: with any numbers, and without account
and time of a creation.  No rule is lost or changed iff each reorder names numbers in use only and
puts there, creation included, what was there (`kept_iff`), so only rules that were created without
an account can move, such as those of `init`.
-/
import Stuart.Caches.AclCache
import Stuart.Lib.Overlay
import Stuart.Lib.Runs

namespace Stuart

open List Lib

/-- A rule with the accounts and times of its changes; target and topic may be null. -/
structure AclEntity where
  seq : ℤ
  target : Option Str
  type : ℤ
  topic : Option Str
  access : ℤ
  authority : ℤ
  createAccount : Option Str
  createTime : ℤ
  updateAccount : Option Str
  updateTime : ℤ
deriving DecidableEq

/-- What a rule is, wherever it stands in the list. -/
structure AclContent where
  target : Option Str
  type : ℤ
  topic : Option Str
  access : ℤ
  authority : ℤ
  createAccount : Option Str
  createTime : ℤ
deriving DecidableEq

def AclEntity.content (acl : AclEntity) : AclContent :=
  ⟨acl.target, acl.type, acl.topic, acl.access, acl.authority, acl.createAccount, acl.createTime⟩

/-- What the broker reads of a rule. -/
def AclEntity.toAcl (acl : AclEntity) : MqttAcl :=
  ⟨acl.seq, acl.target.getD [], acl.type, acl.topic.getD [], acl.access, acl.authority⟩

namespace CacheConst

def NONE : ℤ := 0

def SUCCEEDED : ℤ := 1

end CacheConst

open CacheConst

structure AclStore where
  cache : PlainMap ℤ AclEntity
  sequence : ℤ
  keyed : ∀ seq acl, cache.get seq = some acl → acl.seq = seq

namespace AclStore

def empty : AclStore := ⟨∅, 0, by simp⟩

/-- `cache.put(acl.getSeq(), acl)`. -/
def put (s : AclStore) (acl : AclEntity) : AclStore where
  cache := s.cache.put acl.seq acl
  sequence := s.sequence
  keyed := by
    intro seq acl' h
    rcases PlainMap.eq_or_get_of_get_put s.cache h with ⟨rfl, rfl⟩ | h
    · rfl
    · exact s.keyed seq acl' h

/-- The number of the new rule, and the store afterwards. -/
def add (s : AclStore) (acl : AclEntity) : ℤ × AclStore :=
  let seq := s.sequence + 1
  (seq, { s with sequence := seq }.put { acl with seq := seq })

def delete (s : AclStore) : Option ℤ → ℤ × AclStore
  | none => (NONE, s)
  | some seq =>
      (if s.cache.containsKey seq then SUCCEEDED else NONE,
        { cache := s.cache.remove seq
          sequence := s.sequence
          keyed := fun seq' acl h => s.keyed seq' acl (PlainMap.get_of_get_remove s.cache h) })

def update (s : AclStore) (acl : AclEntity) : ℤ × AclStore :=
  match s.cache.get acl.seq with
  | some old => (SUCCEEDED, s.put { acl with
      createAccount := old.createAccount
      createTime := old.createTime })
  | none => (NONE, s)

def reorder (s : AclStore) (acls : List AclEntity) : ℤ × AclStore :=
  if acls.isEmpty then (NONE, s) else (acls.length, acls.foldl put s)

/-- A rule that is created at the start, without an account. -/
def ofAcl (acl : MqttAcl) : AclEntity :=
  ⟨acl.seq, some acl.target, acl.type, some acl.topic, acl.access, acl.authority, none, 0, none, 0⟩

/-- `init` puts the first rules, under the next numbers. -/
def init (s : AclStore) : AclStore :=
  if s.cache.values.length > 0 ∨ s.sequence > 0 then s
  else (AclCache.initRules.map ofAcl).foldl (fun s acl => (s.add acl).2) s

/-! ### The rules as the broker reads them -/

/-- The cache holds what the broker reads of the stored rules. -/
structure Shows (s : AclStore) (c : AclCache) : Prop where
  sequence : c.sequence = s.sequence
  get : ∀ seq, c.cache.get seq = (s.cache.get seq).map AclEntity.toAcl

variable {s : AclStore} {c : AclCache}

lemma Shows.put (h : s.Shows c) (acl : AclEntity) : (s.put acl).Shows (c.put acl.toAcl) := by
  refine ⟨h.sequence, fun seq => ?_⟩
  show (c.cache.put acl.seq acl.toAcl).get seq = ((s.cache.put acl.seq acl).get seq).map _
  rw [PlainMap.get_put, PlainMap.get_put]
  split_ifs
  · rfl
  · exact h.get seq

lemma Shows.add (h : s.Shows c) (acl : AclEntity) : (s.add acl).2.Shows (c.add acl.toAcl) := by
  have hnext : Shows { s with sequence := s.sequence + 1 } { c with sequence := c.sequence + 1 } :=
    ⟨congrArg (· + 1) h.sequence, h.get⟩
  have hput := hnext.put { acl with seq := s.sequence + 1 }
  simp only [AclCache.add]
  rw [h.sequence] at hput ⊢
  exact hput

lemma Shows.delete (h : s.Shows c) (seq : ℤ) : (s.delete (some seq)).2.Shows (c.delete seq) := by
  refine ⟨h.sequence, fun seq' => ?_⟩
  show (c.cache.remove seq).get seq' = ((s.cache.remove seq).get seq').map _
  rw [PlainMap.get_remove, PlainMap.get_remove]
  split_ifs
  · rfl
  · exact h.get seq'

lemma Shows.update (h : s.Shows c) (acl : AclEntity) :
    (s.update acl).2.Shows (c.update acl.toAcl) := by
  simp only [AclStore.update, AclCache.update]
  have hget : c.cache.get acl.toAcl.seq = (s.cache.get acl.seq).map AclEntity.toAcl :=
    h.get acl.seq
  cases hold : s.cache.get acl.seq with
  | none =>
      rw [hold] at hget
      rw [if_neg (by simp [hget])]
      exact h
  | some old =>
      rw [hold] at hget
      rw [if_pos (by simp [hget])]
      exact h.put _

lemma Shows.reorder (h : s.Shows c) (acls : List AclEntity) :
    (s.reorder acls).2.Shows (c.reorder (acls.map AclEntity.toAcl)) := by
  have hfold : ∀ {s : AclStore} {c : AclCache}, s.Shows c →
      (acls.foldl AclStore.put s).Shows ((acls.map AclEntity.toAcl).foldl AclCache.put c) := by
    clear h
    induction acls with
    | nil => exact id
    | cons acl acls ih => exact fun h => ih (h.put acl)
  simp only [AclStore.reorder]
  split_ifs with hempty
  · rw [isEmpty_iff.1 hempty]
    exact h
  · exact hfold h

/-- All rules have numbers that the sequence has given. -/
def Numbered (s : AclStore) : Prop := ∀ seq ∈ s.cache.entries.keys, seq ≤ s.sequence

lemma Numbered.add (h : s.Numbered) (acl : AclEntity) : (s.add acl).2.Numbered := by
  intro seq hmem
  have hentries : (s.add acl).2.cache.entries =
      ⟨s.sequence + 1, _⟩ :: (s.cache.remove (s.sequence + 1)).entries := PlainMap.entries_put _ _ _
  show seq ≤ s.sequence + 1
  rw [hentries] at hmem
  rcases mem_cons.1 hmem with rfl | hmem
  · exact le_refl _
  · have hold : seq ∈ s.cache.entries.keys :=
      ((kerase_sublist _ s.cache.entries).map Sigma.fst).subset hmem
    have := h seq hold
    omega

lemma Numbered.init (h : s.Numbered) : s.init.Numbered := by
  have hfold : ∀ (acls : List AclEntity) {s : AclStore}, s.Numbered →
      (acls.foldl (fun s acl => (s.add acl).2) s).Numbered := by
    intro acls
    induction acls with
    | nil => exact id
    | cons acl acls ih => exact fun h => ih (h.add acl)
  simp only [AclStore.init]
  split_ifs
  · exact h
  · exact hfold _ h

end AclStore

/-! ### The requests -/

/-- The body of a request, or a row of a reorder.  A number that is absent or cannot be read is
`none`. -/
structure AclBody where
  seq : Option ℤ
  target : Option Str
  type : Option ℤ
  topic : Option Str
  access : Option ℤ
  authority : Option ℤ
deriving DecidableEq

namespace AclBody

/-- For the type "all" the target is the one for all. -/
def targetOf (target : Option Str) (type : ℤ) : Option Str :=
  if type = Target.all.value then some AclConst.ALL else target

/-- The rule that `addAcl` builds. -/
def added (account : Option Str) (now : ℤ) (body : AclBody) : Option AclEntity :=
  match body.type, body.access, body.authority with
  | some type, some access, some authority =>
      some ⟨0, targetOf body.target type, type, body.topic, access, authority, account, now,
        none, 0⟩
  | _, _, _ => none

/-- The rule that `updateAcl` builds. -/
def updated (account : Option Str) (now : ℤ) (body : AclBody) : Option AclEntity :=
  match body.seq, body.type, body.access, body.authority with
  | some seq, some type, some access, some authority =>
      some ⟨seq, targetOf body.target type, type, body.topic, access, authority, none, 0, account,
        now⟩
  | _, _, _, _ => none

/-- The rule that `reorderAcls` builds of a row. -/
def reordered (account : Option Str) (now : ℤ) (row : AclBody) : Option AclEntity :=
  match row.seq, row.type, row.access, row.authority with
  | some seq, some type, some access, some authority =>
      some ⟨seq, row.target, type, row.topic, access, authority, none, 0, account, now⟩
  | _, _, _, _ => none

end AclBody

/-- A request to the admin console, with the account of its session and the time. -/
inductive AclRequest where
  | addAcl (account : Option Str) (now : ℤ) (body : AclBody)
  | deleteAcl (seq : Option ℤ)
  | updateAcl (account : Option Str) (now : ℤ) (body : AclBody)
  | reorderAcls (account : Option Str) (now : ℤ) (reorders : Option (List AclBody))

namespace AclRequest

/-- The rules of a reorder; one row that cannot be read ends the request. -/
def rows : AclRequest → Option (List AclEntity)
  | .reorderAcls account now reorders =>
      reorders.bind fun r => r.mapM (AclBody.reordered account now)
  | _ => none

/-- The result in the answer, or none after an exception, and the store afterwards. -/
def handle (s : AclStore) : AclRequest → Option ℤ × AclStore
  | .addAcl account now body =>
      match body.added account now with
      | some acl => ((s.add acl).1, (s.add acl).2)
      | none => (none, s)
  | .deleteAcl seq => ((s.delete seq).1, (s.delete seq).2)
  | .updateAcl account now body =>
      match body.updated account now with
      | some acl => ((s.update acl).1, (s.update acl).2)
      | none => (none, s)
  | .reorderAcls account now reorders =>
      match (AclRequest.reorderAcls account now reorders).rows with
      | some acls => ((s.reorder acls).1, (s.reorder acls).2)
      | none => (none, s)

end AclRequest

/-! ### What should be there -/

namespace AclStore

/-- The store, and the rules that were added and not deleted with what they were added or last
updated to, and their numbers. -/
structure Ledger where
  store : AclStore
  expected : List AclContent
  numbers : List ℤ

namespace Ledger

/-- A request refers to the rule that has the number at that time. -/
def step (l : Ledger) (request : AclRequest) : Option Ledger :=
  let store := (request.handle l.store).2
  match request with
  | .addAcl account now body =>
      some (match body.added account now with
        | some acl => ⟨store, acl.content :: l.expected, (l.store.sequence + 1) :: l.numbers⟩
        | none => { l with store := store })
  | .deleteAcl seq =>
      some (match seq.bind l.store.cache.get with
        | some old => ⟨store, l.expected.erase old.content, l.numbers.erase old.seq⟩
        | none => { l with store := store })
  | .updateAcl account now body =>
      some (match (body.updated account now).bind fun acl =>
          (l.store.cache.get acl.seq).map fun old => (old, acl) with
        | some (old, acl) =>
            { l with
              store := store
              expected := { acl with
                createAccount := old.createAccount
                createTime := old.createTime }.content :: l.expected.erase old.content }
        | none => { l with store := store })
  | .reorderAcls .. => some { l with store := store }

/-- Every rule is there once, as it should be, and no other one; the numbers are those that were
given, and `add` will not give one of them again. -/
structure Kept (l : Ledger) : Prop where
  rules : l.store.cache.values.map AclEntity.content ~ l.expected
  numbers : l.store.cache.entries.keys ~ l.numbers
  fresh : ∀ seq ∈ l.numbers, seq ≤ l.store.sequence

/-- The rows have numbers in use, and put under these numbers what was under them, in some
order. -/
def Rearranges (s : AclStore) (rows : List AclEntity) : Prop :=
  (∀ row ∈ rows, s.cache.get row.seq ≠ none) ∧
    (s.cache.written AclEntity.seq rows).filterMap
        (fun seq => (PlainMap.lastFor AclEntity.seq rows seq).map AclEntity.content) ~
      (s.cache.written AclEntity.seq rows).filterMap fun seq =>
        (s.cache.get seq).map AclEntity.content

/-- A reorder that gets through rearranges the rules. -/
def Harmless (l : Ledger) (request : AclRequest) : Prop :=
  ∀ rows ∈ request.rows, Rearranges l.store rows

variable {l l' : Ledger}

/-! ### One request -/

lemma get_of_not_mem_keys (h : l.Kept) (hseq : ∀ seq ∈ l.numbers, seq ≤ l.store.sequence) :
    l.store.cache.get (l.store.sequence + 1) = none := by
  rw [PlainMap.get_eq_none_iff]
  intro hmem
  have := hseq _ (h.numbers.mem_iff.1 hmem)
  omega

/-- A new number is not in use, so `add` replaces no rule. -/
lemma kept_add (h : l.Kept) (acl : AclEntity) :
    Kept ⟨(l.store.add acl).2, acl.content :: l.expected, (l.store.sequence + 1) :: l.numbers⟩ := by
  have hfree := get_of_not_mem_keys h h.fresh
  have hentries : (l.store.add acl).2.cache.entries =
      ⟨l.store.sequence + 1, { acl with seq := l.store.sequence + 1 }⟩ ::
        l.store.cache.entries := by
    show (l.store.cache.put _ _).entries = _
    rw [PlainMap.entries_put, PlainMap.remove_of_get_none hfree]
  refine ⟨?_, ?_, ?_⟩
  · rw [PlainMap.values, hentries]
    exact h.rules.cons acl.content
  · rw [hentries]
    exact h.numbers.cons _
  · intro seq hmem
    show seq ≤ l.store.sequence + 1
    rcases mem_cons.1 hmem with rfl | hmem
    · exact le_refl _
    · have := h.fresh seq hmem
      omega

lemma kept_delete (h : l.Kept) {seq : ℤ} {old : AclEntity}
    (hget : l.store.cache.get seq = some old) :
    Kept ⟨(l.store.delete (some seq)).2, l.expected.erase old.content,
      l.numbers.erase old.seq⟩ := by
  refine ⟨?_, ?_, fun seq' hmem => h.fresh seq' (mem_of_mem_erase hmem)⟩
  · have hperm := ((PlainMap.values_perm_of_get hget).map AclEntity.content).symm.trans h.rules
    have herase := hperm.erase old.content
    rwa [map_cons, erase_cons_head] at herase
  · have hkeys : l.store.cache.entries.keys ~ seq :: (l.store.cache.remove seq).entries.keys :=
      (PlainMap.entries_perm_of_get hget).map Sigma.fst
    have herase := (hkeys.symm.trans h.numbers).erase old.seq
    rw [l.store.keyed seq old hget, erase_cons_head] at herase
    show (l.store.cache.remove seq).entries.keys ~ l.numbers.erase old.seq
    rw [l.store.keyed seq old hget]
    exact herase

lemma kept_update (h : l.Kept) {acl old : AclEntity} (hget : l.store.cache.get acl.seq = some old) :
    Kept { l with
      store := (l.store.update acl).2
      expected := { acl with
        createAccount := old.createAccount
        createTime := old.createTime }.content :: l.expected.erase old.content } := by
  have hcache : (l.store.update acl).2.cache = l.store.cache.put acl.seq { acl with
      createAccount := old.createAccount
      createTime := old.createTime } := by
    simp only [update, hget, put]
  refine ⟨?_, ?_, ?_⟩
  · rw [hcache, PlainMap.values_put, map_cons]
    have hperm := ((PlainMap.values_perm_of_get hget).map AclEntity.content).symm.trans h.rules
    have herase := hperm.erase old.content
    rw [map_cons, erase_cons_head] at herase
    exact herase.cons _
  · rw [hcache, PlainMap.entries_put]
    have hkeys : l.store.cache.entries.keys ~
        acl.seq :: (l.store.cache.remove acl.seq).entries.keys :=
      (PlainMap.entries_perm_of_get hget).map Sigma.fst
    exact hkeys.symm.trans h.numbers
  · intro seq hmem
    have hsequence : (l.store.update acl).2.sequence = l.store.sequence := by
      simp only [update, hget, put]
    rw [hsequence]
    exact h.fresh seq hmem

lemma reorder_eq (s : AclStore) (rows : List AclEntity) :
    (s.reorder rows).2.cache = s.cache.putAll AclEntity.seq rows ∧
      (s.reorder rows).2.sequence = s.sequence := by
  have hfold : ∀ (rows : List AclEntity) (s : AclStore),
      (rows.foldl put s).cache = s.cache.putAll AclEntity.seq rows ∧
        (rows.foldl put s).sequence = s.sequence := by
    intro rows
    induction rows with
    | nil => exact fun s => ⟨rfl, rfl⟩
    | cons row rows ih => exact fun s => ih (s.put row)
  simp only [reorder]
  split_ifs with hempty
  · rw [isEmpty_iff.1 hempty]
    exact ⟨rfl, rfl⟩
  · exact hfold rows s

/-- A reorder keeps the rules iff it rearranges them. -/
lemma kept_reorder_iff (h : l.Kept) (rows : List AclEntity) :
    Kept { l with store := (l.store.reorder rows).2 } ↔ Rearranges l.store rows := by
  obtain ⟨hcache, hsequence⟩ := reorder_eq l.store rows
  constructor
  · rintro ⟨hrules, hnumbers, -⟩
    rw [hcache] at hrules hnumbers
    have hused := (PlainMap.keys_putAll_perm AclEntity.seq).1 (hnumbers.trans h.numbers.symm)
    exact ⟨hused, (PlainMap.map_values_putAll_iff AclEntity.seq hused AclEntity.content).1
      (hrules.trans h.rules.symm)⟩
  · rintro ⟨hused, hperm⟩
    refine ⟨?_, ?_, ?_⟩
    · rw [hcache]
      exact ((PlainMap.map_values_putAll_iff AclEntity.seq hused AclEntity.content).2 hperm).trans
        h.rules
    · rw [hcache]
      exact ((PlainMap.keys_putAll_perm AclEntity.seq).2 hused).trans h.numbers
    · intro seq hmem
      rw [hsequence]
      exact h.fresh seq hmem

/-- Nothing but a reorder can lose a rule. -/
lemma kept_step_iff {request : AclRequest} (h : l.Kept) (hstep : l.step request = some l') :
    l'.Kept ↔ l.Harmless request := by
  cases request with
  | addAcl account now body =>
      obtain rfl := Option.some.inj hstep
      refine iff_of_true ?_ fun rows hrows => by cases hrows
      cases hbody : body.added account now with
      | none =>
          simp only [AclRequest.handle, hbody]
          exact h
      | some acl =>
          simp only [AclRequest.handle, hbody]
          exact kept_add h acl
  | deleteAcl seq =>
      obtain rfl := Option.some.inj hstep
      refine iff_of_true ?_ fun rows hrows => by cases hrows
      cases seq with
      | none => exact h
      | some seq =>
          cases hget : l.store.cache.get seq with
          | none =>
              simp only [AclRequest.handle, Option.bind_some, hget]
              refine ⟨?_, ?_, h.fresh⟩
              · simp only [delete, PlainMap.remove_of_get_none hget]
                exact h.rules
              · simp only [delete, PlainMap.remove_of_get_none hget]
                exact h.numbers
          | some old =>
              simp only [AclRequest.handle, Option.bind_some, hget]
              exact kept_delete h hget
  | updateAcl account now body =>
      obtain rfl := Option.some.inj hstep
      refine iff_of_true ?_ fun rows hrows => by cases hrows
      cases hbody : body.updated account now with
      | none =>
          simp only [AclRequest.handle, hbody, Option.bind_none]
          exact h
      | some acl =>
          cases hget : l.store.cache.get acl.seq with
          | none =>
              simp only [AclRequest.handle, hbody, Option.bind_some, hget, Option.map_none, update]
              exact h
          | some old =>
              simp only [AclRequest.handle, hbody, Option.bind_some, hget, Option.map_some]
              exact kept_update h hget
  | reorderAcls account now reorders =>
      obtain rfl := Option.some.inj hstep
      simp only [Harmless]
      cases hrows : (AclRequest.reorderAcls account now reorders).rows with
      | none =>
          simp only [AclRequest.handle, hrows]
          exact iff_of_true h fun rows hmem => by cases hmem
      | some rows =>
          simp only [AclRequest.handle, hrows, Option.mem_def, Option.some.injEq, forall_eq']
          exact kept_reorder_iff h rows

/-! ### Whole runs -/

/-- The ledger of a store as it is. -/
def of (s : AclStore) : Ledger :=
  ⟨s, s.cache.values.map AclEntity.content, s.cache.entries.keys⟩

lemma kept_of {s : AclStore} (h : s.Numbered) : (of s).Kept := ⟨Perm.refl _, Perm.refl _, h⟩

/-- In every state of a run each rule that was added and not deleted is there as it was added or
last updated, with account and time of its creation, and its number stays in use until it is
deleted, iff every reorder of the run rearranges the rules. -/
theorem kept_iff (s : AclStore) (hs : s.Numbered) {requests : List AclRequest}
    (hrun : run step (of s) requests = some l) :
    (∀ pre u, pre <+: requests → run step (of s) pre = some u → u.Kept) ↔
      AllSteps step Harmless (of s) requests :=
  always_iff_allSteps (I := fun _ => True) (fun _ _ _ _ _ => trivial)
    (fun _ _ _ _ hkept hstep => kept_step_iff hkept hstep) trivial (kept_of hs) hrun

def adminAccount : Option Str := some ['a', 'd', 'm', 'i', 'n']

def topicBody (seq : Option ℤ) (topic : Char) : AclBody :=
  ⟨seq, none, some Target.all.value, some [topic], some Access.sub.value,
    some Authority.deny.value⟩

/-- Two rules are added, and their rows change places. -/
def swapRequests : List AclRequest :=
  [.addAcl adminAccount 7 (topicBody none 'a'), .addAcl adminAccount 8 (topicBody none 'b'),
    .reorderAcls adminAccount 9 (some
      [{ topicBody (some 7) 'a' with target := some AclConst.ALL },
        { topicBody (some 6) 'b' with target := some AclConst.ALL }])]

def afterAdd : Ledger := (run step (of AclStore.empty.init) (swapRequests.take 2)).get rfl

/-- Rules are added to the first ones. -/
theorem kept_iff_add :
    (∀ pre u, pre <+: swapRequests.take 2 →
        run step (of AclStore.empty.init) pre = some u → u.Kept) ↔
      AllSteps step Harmless (of AclStore.empty.init) (swapRequests.take 2) := by
  have hnumbered : AclStore.empty.Numbered := fun seq hmem => by cases hmem
  have hrun : run step (of AclStore.empty.init) (swapRequests.take 2) = some afterAdd :=
    (Option.some_get _).symm
  exact kept_iff AclStore.empty.init hnumbered.init hrun

def afterSwap : Ledger := (run step (of AclStore.empty.init) swapRequests).get rfl

/-- The content of the first rule that is added. -/
def addedContent : AclContent :=
  ⟨some AclConst.ALL, Target.all.value, some ['a'], Access.sub.value, Authority.deny.value,
    adminAccount, 7⟩

/-- Account and time of the creation are lost. -/
theorem not_kept :
    ¬∀ (requests : List AclRequest) (l : Ledger),
      run step (of AclStore.empty.init) requests = some l → l.Kept := by
  intro h
  have hkept := h swapRequests afterSwap (Option.some_get _).symm
  have hexpected : addedContent ∈ afterSwap.expected := by decide
  have hlost : addedContent ∉ afterSwap.store.cache.values.map AclEntity.content := by decide
  exact hlost (hkept.rules.mem_iff.2 hexpected)

end Ledger

end AclStore

end Stuart
