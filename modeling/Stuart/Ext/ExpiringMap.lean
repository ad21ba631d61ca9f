/-
The expiring map with the times of its entries, all of which live equally long.

The entries stand in the order in which they were put, and only the first one is scheduled: when
its time is over the expirer takes it out with every later entry whose time is over as well, calls
the listener for each of them, and schedules the entry that is first then.  `put` returns early
when the value is there already, and then the entry keeps its time.  A map with an entry whose
expiration nobody has scheduled would keep it for ever; no operation leads to such a map (`armed`).
-/
import Mathlib.Data.Int.Notation
import Mathlib.Data.List.Nodup

namespace Stuart

open List

namespace Expirer

inductive ExpirationPolicy where
  | accessed
  | created
deriving DecidableEq

structure ExpiringEntry (K V : Type) where
  key : K
  value : V
  expectedExpiration : ℤ
  scheduled : Bool

namespace ExpiringEntry

variable {K V : Type}

/-- `scheduleEntry(entries.first())`. -/
def scheduleFirst : List (ExpiringEntry K V) → List (ExpiringEntry K V)
  | [] => []
  | entry :: rest => { entry with scheduled := true } :: rest

/-- The loop of the expirer: the keys whose listeners are called, and the entries that stay. -/
def expire (now : ℤ) : List (ExpiringEntry K V) → List K × List (ExpiringEntry K V)
  | [] => ([], [])
  | entry :: rest =>
      if entry.expectedExpiration ≤ now then
        (entry.key :: (expire now rest).1, (expire now rest).2)
      else ([], { entry with scheduled := true } :: rest)

/-- The first entry is scheduled. -/
def Armed (entries : List (ExpiringEntry K V)) : Prop :=
  ∀ entry ∈ entries.head?, entry.scheduled = true

@[simp] lemma map_key_scheduleFirst (entries : List (ExpiringEntry K V)) :
    (scheduleFirst entries).map key = entries.map key := by
  cases entries <;> rfl

lemma armed_cons {first : ExpiringEntry K V} (h : first.scheduled = true)
    (rest : List (ExpiringEntry K V)) : Armed (first :: rest) := by
  intro entry hentry
  obtain rfl := Option.some.inj hentry
  exact h

lemma armed_scheduleFirst (entries : List (ExpiringEntry K V)) : Armed (scheduleFirst entries) := by
  cases entries with
  | nil => exact fun entry h => nomatch h
  | cons entry rest => exact armed_cons rfl rest

/-- The loop splits the keys: those it takes out come first. -/
lemma expire_keys (now : ℤ) (entries : List (ExpiringEntry K V)) :
    entries.map key = (expire now entries).1 ++ (expire now entries).2.map key := by
  induction entries with
  | nil => rfl
  | cons entry rest ih =>
      simp only [expire]
      split_ifs
      · exact congrArg (entry.key :: ·) ih
      · rfl

lemma armed_expire (now : ℤ) (entries : List (ExpiringEntry K V)) :
    Armed (expire now entries).2 := by
  induction entries with
  | nil => exact fun entry h => nomatch h
  | cons entry rest ih =>
      simp only [expire]
      split_ifs
      · exact ih
      · exact armed_scheduleFirst (entry :: rest)

end ExpiringEntry

open ExpiringEntry

structure ExpiringMap (K V : Type) where
  maxSize : ℤ
  expirationPolicy : ExpirationPolicy
  expirationNanos : ℤ
  entries : List (ExpiringEntry K V)
  nodup : (entries.map ExpiringEntry.key).Nodup
  armed : Armed entries

namespace ExpiringMap

variable {K V : Type}

/-- `CacheUtil.expiringMap`: the expiration policy is `CREATED`, and the builder keeps its own
greatest size unless a positive one is asked for. -/
def expiringMap (duration maxSize : ℤ) : ExpiringMap K V where
  maxSize := if maxSize > 0 ∧ maxSize ≤ 2147483647 then maxSize else 2147483647
  expirationPolicy := .created
  expirationNanos := duration * 1000000000
  entries := []
  nodup := nodup_nil
  armed := fun _ h => nomatch h

def keys (m : ExpiringMap K V) : List K := m.entries.map ExpiringEntry.key

def size (m : ExpiringMap K V) : ℤ := m.entries.length

variable [DecidableEq K]

def getEntry (m : ExpiringMap K V) (key : K) : Option (ExpiringEntry K V) :=
  m.entries.find? fun entry => entry.key = key

/-- The entries under other keys. -/
def others (m : ExpiringMap K V) (key : K) : List (ExpiringEntry K V) :=
  m.entries.filter fun entry => entry.key ≠ key

lemma mem_keys_others (m : ExpiringMap K V) (key key' : K) :
    key' ∈ (m.others key).map ExpiringEntry.key ↔ key' ≠ key ∧ key' ∈ m.keys := by
  simp only [others, keys, mem_map, mem_filter, decide_eq_true_eq]
  constructor
  · rintro ⟨entry, ⟨hmem, hne⟩, rfl⟩
    exact ⟨hne, entry, hmem, rfl⟩
  · rintro ⟨hne, entry, hmem, rfl⟩
    exact ⟨entry, ⟨hmem, hne⟩, rfl⟩

lemma nodup_others (m : ExpiringMap K V) (key : K) :
    ((m.others key).map ExpiringEntry.key).Nodup :=
  m.nodup.sublist (filter_sublist.map _)

lemma key_of_getEntry {m : ExpiringMap K V} {key : K} {entry : ExpiringEntry K V}
    (h : m.getEntry key = some entry) : entry.key = key := by
  simpa using find?_some h

lemma mem_keys_of_getEntry {m : ExpiringMap K V} {key : K} {entry : ExpiringEntry K V}
    (h : m.getEntry key = some entry) : key ∈ m.keys :=
  mem_map.2 ⟨entry, mem_of_find?_eq_some h, key_of_getEntry h⟩

lemma getEntry_eq_none_iff {m : ExpiringMap K V} {key : K} :
    m.getEntry key = none ↔ key ∉ m.keys := by
  simp only [getEntry, keys]
  rw [find?_eq_none]
  simp

/-- Without an entry that is not scheduled the first entry is the same one. -/
lemma others_eq_cons (m : ExpiringMap K V) {key : K} {entry : ExpiringEntry K V}
    (h : m.getEntry key = some entry) (hs : entry.scheduled = false) :
    ∃ first rest, first.scheduled = true ∧ m.others key = first :: rest := by
  simp only [others]
  simp only [getEntry] at h
  have harmed := m.armed
  cases hentries : m.entries with
  | nil =>
      rw [hentries] at h
      cases h
  | cons first rest =>
      rw [hentries] at h harmed
      have hfirst : first.scheduled = true := harmed first rfl
      have hne : first.key ≠ key := by
        intro heq
        rw [find?_cons_of_pos (by simpa using heq)] at h
        obtain rfl := Option.some.inj h
        rw [hfirst] at hs
        contradiction
      exact ⟨first, _, hfirst, filter_cons_of_pos (by simpa using hne)⟩

/-- A new entry comes last, and it is scheduled if it is the only one. -/
def add (m : ExpiringMap K V) (now : ℤ) (key : K) (value : V) (h : key ∉ m.keys) :
    ExpiringMap K V :=
  { m with
    entries := m.entries ++ [⟨key, value, m.expirationNanos + now, m.entries.isEmpty⟩]
    nodup := by
      rw [map_append]
      refine nodup_append.2 ⟨m.nodup, nodup_singleton _, fun a ha b hb hab => h ?_⟩
      have heq : a = key := hab.trans (mem_singleton.1 hb)
      exact heq ▸ ha
    armed := by
      have harmed := m.armed
      cases hentries : m.entries with
      | nil => exact armed_cons rfl []
      | cons first rest =>
          rw [hentries] at harmed
          exact armed_cons (harmed first rfl) _ }

/-- `entries.remove` and then, if the entry was scheduled, `scheduleEntry(entries.first())`. -/
def takeOut (m : ExpiringMap K V) (key : K) (entry : ExpiringEntry K V)
    (h : m.getEntry key = some entry) : ExpiringMap K V :=
  { m with
    entries := if entry.scheduled then scheduleFirst (m.others key) else m.others key
    nodup := by
      split_ifs
      · rw [map_key_scheduleFirst]
        exact m.nodup_others key
      · exact m.nodup_others key
    armed := by
      split_ifs with hs
      · exact armed_scheduleFirst _
      · obtain ⟨first, rest, hfirst, heq⟩ := m.others_eq_cons h (by simpa using hs)
        rw [heq]
        exact armed_cons hfirst rest }

/-- `setValue` and `resetEntry`: the entry is put last, with a new expiration. -/
def resetEntry (m : ExpiringMap K V) (now : ℤ) (key : K) (entry : ExpiringEntry K V) (value : V)
    (h : m.getEntry key = some entry) : ExpiringMap K V :=
  let entries := m.others key ++ [⟨key, value, m.expirationNanos + now, false⟩]
  { m with
    entries := if entry.scheduled then scheduleFirst entries else entries
    nodup := by
      have hnodup : (entries.map ExpiringEntry.key).Nodup := by
        rw [map_append]
        refine nodup_append.2 ⟨m.nodup_others key, nodup_singleton _, fun a ha b hb hab => ?_⟩
        exact ((m.mem_keys_others key a).1 ha).1 (hab.trans (mem_singleton.1 hb))
      split_ifs
      · rw [map_key_scheduleFirst]
        exact hnodup
      · exact hnodup
    armed := by
      split_ifs with hs
      · exact armed_scheduleFirst _
      · obtain ⟨first, rest, hfirst, heq⟩ := m.others_eq_cons h (by simpa using hs)
        show Armed (m.others key ++ _)
        rw [heq]
        exact armed_cons hfirst _ }

/-- `putInternal`; the clock reads `now`. -/
def putInternal (m : ExpiringMap K V) [DecidableEq V] (now : ℤ) (key : K) (value : V)
    (expirationPolicy : ExpirationPolicy) : Option V × ExpiringMap K V :=
  match h : m.getEntry key with
  | none =>
      if m.size ≥ m.maxSize then (some value, m)
      else (none, m.add now key value (getEntry_eq_none_iff.1 h))
  | some entry =>
      if expirationPolicy ≠ .accessed ∧ entry.value = value then (some value, m)
      else (some entry.value, m.resetEntry now key entry value h)

def put (m : ExpiringMap K V) [DecidableEq V] (now : ℤ) (key : K) (value : V) :
    Option V × ExpiringMap K V :=
  m.putInternal now key value m.expirationPolicy

def remove (m : ExpiringMap K V) (key : K) : Option V × ExpiringMap K V :=
  match h : m.getEntry key with
  | none => (none, m)
  | some entry => (some entry.value, m.takeOut key entry h)

/-- The expirer runs for the entry that was scheduled under the key: the keys whose listeners are
called, in this order, and the map after it. -/
def run (m : ExpiringMap K V) (now : ℤ) (key : K) : List K × ExpiringMap K V :=
  let due := (m.getEntry key).filter ExpiringEntry.scheduled
  let entries := if due.isSome then m.others key else m.entries
  (due.toList.map ExpiringEntry.key ++ (ExpiringEntry.expire now entries).1,
    { m with
      entries := (ExpiringEntry.expire now entries).2
      nodup := by
        have hnodup : (entries.map ExpiringEntry.key).Nodup := by
          show (map ExpiringEntry.key (if due.isSome then m.others key else m.entries)).Nodup
          split_ifs
          · exact m.nodup_others key
          · exact m.nodup
        rw [ExpiringEntry.expire_keys now] at hnodup
        exact hnodup.of_append_right
      armed := ExpiringEntry.armed_expire now entries })

/-! ### The keys -/

variable {m : ExpiringMap K V}

/-- A `put` adds its key, whichever way it returns, unless the map is full. -/
lemma mem_keys_put [DecidableEq V] {key : K} (h : key ∈ m.keys ∨ m.size < m.maxSize) (now : ℤ)
    (value : V) (key' : K) :
    key' ∈ (m.put now key value).2.keys ↔ key' = key ∨ key' ∈ m.keys := by
  simp only [put, putInternal]
  split
  · rename_i hget
    have hnot := getEntry_eq_none_iff.1 hget
    rw [if_neg (by have := h.resolve_left hnot; omega)]
    show key' ∈ (m.entries ++ [_]).map ExpiringEntry.key ↔ _
    rw [map_append, mem_append, or_comm]
    exact or_congr_left mem_singleton
  · rename_i entry hget
    have hmem := mem_keys_of_getEntry hget
    split_ifs
    · exact ⟨Or.inr, fun h => h.elim (fun heq => heq ▸ hmem) id⟩
    · have hkeys : key' ∈ map ExpiringEntry.key (m.others key ++
          [⟨key, value, m.expirationNanos + now, false⟩]) ↔ key' = key ∨ key' ∈ m.keys := by
        rw [map_append, mem_append, mem_keys_others, or_comm]
        refine (or_congr_left mem_singleton).trans ⟨?_, ?_⟩
        · rintro (heq | ⟨-, hkey⟩)
          · exact Or.inl heq
          · exact Or.inr hkey
        · intro hkey
          by_cases heq : key' = key
          · exact Or.inl heq
          · exact Or.inr ⟨heq, hkey.resolve_left heq⟩
      show key' ∈ map ExpiringEntry.key (if entry.scheduled then _ else _) ↔ _
      split_ifs
      · rw [map_key_scheduleFirst]
        exact hkeys
      · exact hkeys

lemma mem_keys_remove (key key' : K) :
    key' ∈ (m.remove key).2.keys ↔ key' ≠ key ∧ key' ∈ m.keys := by
  simp only [remove]
  split
  · rename_i hget
    have hnot := getEntry_eq_none_iff.1 hget
    refine ⟨fun hmem => ⟨?_, hmem⟩, And.right⟩
    rintro rfl
    exact hnot hmem
  · rename_i entry hget
    show key' ∈ map ExpiringEntry.key (if entry.scheduled then _ else _) ↔ _
    split_ifs
    · rw [map_key_scheduleFirst]
      exact m.mem_keys_others key key'
    · exact m.mem_keys_others key key'

/-- The expirer calls the listener once for each key that it takes out, and for no other. -/
lemma keys_run (now : ℤ) (key : K) :
    m.keys.Perm ((m.run now key).1 ++ (m.run now key).2.keys) := by
  have hexpire := ExpiringEntry.expire_keys now
    (if ((m.getEntry key).filter ExpiringEntry.scheduled).isSome then m.others key else m.entries)
  rw [run]
  dsimp only
  rw [append_assoc]
  show m.keys.Perm (_ ++ (_ ++ map ExpiringEntry.key (ExpiringEntry.expire now _).2))
  rw [← hexpire]
  cases hdue : (m.getEntry key).filter ExpiringEntry.scheduled with
  | none => exact Perm.refl _
  | some entry =>
      obtain ⟨hget, -⟩ := Option.filter_eq_some_iff.1 hdue
      obtain rfl := key_of_getEntry hget
      refine (perm_ext_iff_of_nodup m.nodup ?_).2 fun key' => ?_
      · exact nodup_cons.2 ⟨fun hmem => ((m.mem_keys_others _ _).1 hmem).1 rfl, m.nodup_others _⟩
      · have hmem := mem_keys_of_getEntry hget
        show key' ∈ m.keys ↔ key' ∈ entry.key :: map ExpiringEntry.key (m.others entry.key)
        rw [mem_cons, mem_keys_others]
        by_cases heq : key' = entry.key
        · exact iff_of_true (heq ▸ hmem) (Or.inl heq)
        · simp [heq]

end ExpiringMap

end Expirer

end Stuart
