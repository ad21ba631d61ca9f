/-
The size of the await map when entries expire.

`BoundedIgniteMap` counts its entries in a field that only `put` and `remove` change.  When an
entry expires it leaves the cache, and the listener of `AwaitCacheImpl` takes its key out of the
set later on, but nobody corrects the field: from then on it is too large by one for every expired
entry (`size_iff`), and a late PUBREL, which finds nothing to remove, does not correct it either.
-/
import Stuart.Ext.IgniteStores

namespace Stuart

open Lib

namespace IgniteStores

variable {K V : Type} [DecidableEq K]

/-- A map with the keys of the expired entries that the listener has still to take out of the
set. -/
structure Await (K V : Type) [DecidableEq K] where
  map : BoundedIgniteMap K V
  expired : List K

namespace Await

inductive Action (K V : Type) where
  | put (key : K) (value : V)
  | remove (key : K)
  /-- the cache drops an entry -/
  | expire (key : K)
  /-- `awaitExpiredListener` is called for an expired entry -/
  | awaitExpired (key : K)

/-- The constructor over what is stored. -/
def create (s : Stores K V) (capacity : ℤ) : Await K V := ⟨.create s capacity, []⟩

def step (s : Await K V) : Action K V → Option (Await K V)
  | .put key value => some { s with map := (s.map.put key value).2 }
  | .remove key => some { s with map := (s.map.remove key).2 }
  | .expire key =>
      if s.map.stores.cache.containsKey key then
        some ⟨{ s.map with stores := s.map.stores.write (.cacheGetAndRemove key) },
          s.expired ++ [key]⟩
      else none
  | .awaitExpired key =>
      if key ∈ s.expired then
        some ⟨{ s.map with stores := s.map.stores.write (.setRemove key) }, s.expired.erase key⟩
      else none

/-- The size is the number of live entries and within the capacity, and a new key is refused only
when there are as many live entries as the capacity admits. -/
structure Exact (s : Await K V) : Prop where
  size_eq : s.map.size = s.map.stores.live
  size_le : s.map.size ≤ s.map.capacity
  full : ∀ key value, s.map.get key = none → (s.map.put key value).1 = false →
    (s.map.stores.live : ℤ) = s.map.capacity

end Await

/-! ### Live entries -/

namespace Stores

variable {s : Stores K V} {key : K}

lemma live_remove_of_get {value : V} (h : s.cache.get key = some value) :
    s.live = (s.cache.remove key).values.length + 1 := (PlainMap.values_perm_of_get h).length_eq

lemma live_update (h : s.cache.containsKey key = true) (value : V) :
    (s.writes (updateWrites key value)).live = s.live := by
  obtain ⟨old, hold⟩ := Option.isSome_iff_exists.1 h
  show (s.cache.put key value).values.length = s.live
  rw [PlainMap.values_put, List.length_cons, live_remove_of_get hold]

lemma live_insert (h : s.cache.get key = none) (value : V) :
    (s.writes (insertWrites key value)).live = s.live + 1 := by
  show (s.cache.put key value).values.length = s.live + 1
  rw [PlainMap.values_put, PlainMap.remove_of_get_none h]
  rfl

/-- After a constructor there are as many keys in the set as entries in the cache. -/
lemma Covered.card_reopen (h : s.Covered) : s.reopen.set.card = s.live := by
  have hkeys : s.reopen.set = s.cache.keys.toFinset := by
    ext key
    rw [h.mem_reopen_iff, List.mem_toFinset]
    exact not_iff_comm.1 (s.cache.get_eq_none_iff key).symm
  have hnodup : s.cache.keys.Nodup := s.cache.keys_nodup
  rw [hkeys, List.toFinset_card_of_nodup hnodup]
  simp only [live, PlainMap.values, AList.keys, List.keys]
  rw [List.length_map, List.length_map]

end Stores

/-! ### The counter -/

namespace Await

variable {s s' : Await K V}

/-- With a positive capacity the last part of `Exact` follows from the others. -/
lemma exact_iff_size (hpos : 0 < s.map.capacity) :
    s.Exact ↔ s.map.size = s.map.stores.live ∧ s.map.size ≤ s.map.capacity := by
  refine ⟨fun h => ⟨h.size_eq, h.size_le⟩, fun h => ⟨h.1, h.2, fun key value hnew hput => ?_⟩⟩
  have hkey : ¬s.map.stores.cache.containsKey key = true := by
    rw [PlainMap.containsKey_iff, not_not]
    exact hnew
  simp only [BoundedIgniteMap.put] at hput
  rw [if_neg hkey] at hput
  split_ifs at hput with hroom
  have hfull : ¬s.map.size < s.map.capacity := fun hlt => hroom ⟨hpos, hlt⟩
  omega

lemma capacity_step {action : Action K V} (h : step s action = some s') :
    s'.map.capacity = s.map.capacity := by
  cases action with
  | put key value =>
      obtain rfl := Option.some.inj h
      simp only [BoundedIgniteMap.put]
      split_ifs <;> rfl
  | remove key =>
      obtain rfl := Option.some.inj h
      rfl
  | expire key =>
      simp only [step] at h
      split_ifs at h
      obtain rfl := Option.some.inj h
      rfl
  | awaitExpired key =>
      simp only [step] at h
      split_ifs at h
      obtain rfl := Option.some.inj h
      rfl

/-- By how much the size is too large. -/
def drift (s : Await K V) : ℤ := s.map.size - s.map.stores.live

/-- What an action adds to it. -/
def Action.lost : Action K V → ℤ
  | .expire _ => 1
  | .put _ _ | .remove _ | .awaitExpired _ => 0

/-- Only an expiry changes the number of entries without the size. -/
lemma drift_step {action : Action K V} (h : step s action = some s') :
    drift s' = drift s + action.lost := by
  simp only [drift]
  cases action with
  | put key value =>
      obtain rfl := Option.some.inj h
      simp only [BoundedIgniteMap.put, Action.lost]
      split_ifs with hkey hroom
      · simp only [Stores.live_update hkey, Int.add_zero]
      · have hnew : s.map.stores.cache.get key = none := by simpa using hkey
        simp only [Stores.live_insert hnew]
        push_cast
        omega
      · exact (Int.add_zero _).symm
  | remove key =>
      obtain rfl := Option.some.inj h
      show (if (s.map.stores.cache.get key).isSome then s.map.size - 1 else s.map.size) -
        ((s.map.stores.cache.remove key).values.length : ℤ) = _ + 0
      cases hget : s.map.stores.cache.get key with
      | none =>
          rw [PlainMap.remove_of_get_none hget]
          exact (Int.add_zero _).symm
      | some value =>
          rw [Stores.live_remove_of_get hget]
          simp only [Option.isSome_some, if_true]
          push_cast
          omega
  | expire key =>
      simp only [step] at h
      split_ifs at h with hkey
      obtain rfl := Option.some.inj h
      obtain ⟨value, hget⟩ := Option.isSome_iff_exists.1 hkey
      show s.map.size - ((s.map.stores.cache.remove key).values.length : ℤ) = _ + 1
      rw [Stores.live_remove_of_get hget]
      push_cast
      omega
  | awaitExpired key =>
      simp only [step] at h
      split_ifs at h
      obtain rfl := Option.some.inj h
      exact (Int.add_zero _).symm

/-- The size grows only where there is room. -/
lemma size_le_step {action : Action K V} (h : step s action = some s')
    (hle : s.map.size ≤ s.map.capacity) : s'.map.size ≤ s.map.capacity := by
  cases action with
  | put key value =>
      obtain rfl := Option.some.inj h
      simp only [BoundedIgniteMap.put]
      split_ifs with hkey hroom
      · exact hle
      · exact hroom.2
      · exact hle
  | remove key =>
      obtain rfl := Option.some.inj h
      show (if (s.map.stores.cache.get key).isSome then s.map.size - 1 else s.map.size) ≤ _
      split_ifs <;> omega
  | expire key =>
      simp only [step] at h
      split_ifs at h
      obtain rfl := Option.some.inj h
      exact hle
  | awaitExpired key =>
      simp only [step] at h
      split_ifs at h
      obtain rfl := Option.some.inj h
      exact hle

/-- A step from an exact size leaves an exact one iff no entry expires. -/
lemma exact_step_iff {action : Action K V} (hpos : 0 < s.map.capacity) (hexact : s.Exact)
    (h : step s action = some s') : s'.Exact ↔ ∀ key, action ≠ .expire key := by
  have hcapacity := capacity_step h
  have hle := size_le_step h hexact.size_le
  have hdrift := drift_step h
  have hzero : drift s = 0 := Int.sub_eq_zero.2 hexact.size_eq
  have hlost : action.lost = 0 ↔ ∀ key, action ≠ .expire key := by
    cases action <;> simp [Action.lost]
  rw [exact_iff_size (hcapacity ▸ hpos), hcapacity, and_iff_left hle, ← Int.sub_eq_zero, ← hlost]
  show drift s' = 0 ↔ _
  omega

/-- From a constructor over stored entries that the capacity admits, the size is exact all along a
run iff no entry expires in it. -/
theorem size_iff {stored : Stores K V} (hcovered : stored.Covered) {capacity : ℤ}
    (hpos : 0 < capacity) (hlive : (stored.live : ℤ) ≤ capacity) (actions : List (Action K V))
    (t : Await K V) (hrun : run step (create stored capacity) actions = some t) :
    (∀ pre u, pre <+: actions → run step (create stored capacity) pre = some u → u.Exact) ↔
      ∀ key, .expire key ∉ actions := by
  have hstart : (create stored capacity).Exact := by
    rw [exact_iff_size hpos]
    show (stored.reopen.set.card : ℤ) = stored.live ∧ (stored.reopen.set.card : ℤ) ≤ capacity
    rw [hcovered.card_reopen]
    exact ⟨rfl, hlive⟩
  rw [always_iff_allSteps (I := fun s => s.map.capacity = capacity)
    (P := fun _ action => ∀ key, action ≠ .expire key) ?_ ?_ rfl hstart hrun,
    allSteps_action hrun]
  · exact ⟨fun h key hmem => h _ hmem key rfl, fun h action hmem key heq => h key (heq ▸ hmem)⟩
  · exact fun s action s' hs h => (capacity_step h).trans hs
  · exact fun s action s' hs hexact h => exact_step_iff (hs ▸ hpos) hexact h

theorem size_iff_released :
    (∀ pre u, pre <+: [.put 1 7, .remove 1] →
      run step (create (Stores.empty : Stores ℕ ℕ) 1) pre = some u → u.Exact) ↔
      ∀ key, .expire key ∉ [Action.put 1 7, .remove 1] :=
  size_iff Stores.covered_empty (by decide) (by decide) [.put 1 7, .remove 1] _ rfl

/-- The entry of the only slot expires, its key goes out of the set, a late `remove` finds nothing,
and a new key is refused by the empty map. -/
theorem not_size : ∃ u, run step (create (Stores.empty : Stores ℕ ℕ) 1)
    [.put 1 7, .expire 1, .awaitExpired 1, .remove 1] = some u ∧
    u.map.size = 1 ∧ u.map.stores.live = 0 ∧ (u.map.put 2 7).1 = false ∧ ¬u.Exact :=
  ⟨_, rfl, rfl, rfl, rfl, fun h => absurd h.size_eq (by decide)⟩

end Await

end IgniteStores

end Stuart
