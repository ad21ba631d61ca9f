/-
The two bounded Ignite maps over what is stored of them.

A map keeps its entries in a cache and its keys in a set, and nothing but the order of the single
writes keeps the two together: the process may stop between two of them, and an expired entry
leaves the cache before its key leaves the set.  Here the two are separate stores, without the
invariant that the maps of `Stuart.Ext.Collections` carry; `toStored_put` and its siblings say that
those maps are what comes out when every operation runs to its end.

`BoundedIgniteMapUnsafe` asks the set for its size, `BoundedIgniteMap` counts in a field.
-/
import Stuart.Ext.Collections
import Stuart.Lib.Runs
import Mathlib.Data.Finset.Card

namespace Stuart

open Lib

namespace IgniteStores

variable {K V : Type} [DecidableEq K]

/-- What is stored of the map of one client. -/
structure Stores (K V : Type) [DecidableEq K] where
  cache : PlainMap K V
  set : Finset K

/-- A single write to one of the two stores. -/
inductive Write (K V : Type) where
  | setAdd (key : K)
  | cachePut (key : K) (value : V)
  | cacheGetAndRemove (key : K)
  | setRemove (key : K)

namespace Stores

def empty : Stores K V := ⟨∅, ∅⟩

def write (s : Stores K V) : Write K V → Stores K V
  | .setAdd key => { s with set := insert key s.set }
  | .cachePut key value => { s with cache := s.cache.put key value }
  | .cacheGetAndRemove key => { s with cache := s.cache.remove key }
  | .setRemove key => { s with set := s.set.erase key }

def writes (s : Stores K V) (ws : List (Write K V)) : Stores K V := ws.foldl write s

/-- The number of entries in the cache. -/
def live (s : Stores K V) : ℕ := s.cache.values.length

/-- The constructors of both maps: `set.removeAll` of the keys that are not in the cache. -/
def reopen (s : Stores K V) : Stores K V :=
  { s with set := s.set.filter fun key => s.cache.containsKey key = true }

/-- `close` of `InflightCacheImpl` and `AwaitCacheImpl`: `cache.removeAll(set)`, and the set is
closed. -/
def close (s : Stores K V) : Stores K V :=
  ⟨s.cache.filterKeys fun key => decide (key ∉ s.set), ∅⟩

end Stores

/-- The writes of `put` under a key that is in the cache. -/
def updateWrites (key : K) (value : V) : List (Write K V) := [.cachePut key value]

/-- The writes of `put` under a new key. -/
def insertWrites (key : K) (value : V) : List (Write K V) := [.setAdd key, .cachePut key value]

def removeWrites (key : K) : List (Write K V) := [.cacheGetAndRemove key, .setRemove key]

/-! ### BoundedIgniteMapUnsafe -/

structure BoundedIgniteMapUnsafe (K V : Type) [DecidableEq K] where
  stores : Stores K V
  capacity : ℤ

namespace BoundedIgniteMapUnsafe

def create (s : Stores K V) (capacity : ℤ) : BoundedIgniteMapUnsafe K V := ⟨s.reopen, capacity⟩

def put (m : BoundedIgniteMapUnsafe K V) (key : K) (value : V) :
    Bool × BoundedIgniteMapUnsafe K V :=
  if m.stores.cache.containsKey key then
    (true, { m with stores := m.stores.writes (updateWrites key value) })
  else if m.capacity > 0 ∧ (m.stores.set.card : ℤ) < m.capacity then
    (true, { m with stores := m.stores.writes (insertWrites key value) })
  else (false, m)

def remove (m : BoundedIgniteMapUnsafe K V) (key : K) : Option V × BoundedIgniteMapUnsafe K V :=
  (m.stores.cache.get key, { m with stores := m.stores.writes (removeWrites key) })

def get (m : BoundedIgniteMapUnsafe K V) (key : K) : Option V := m.stores.cache.get key

def size (m : BoundedIgniteMapUnsafe K V) : ℕ := m.stores.set.card

def isFull (m : BoundedIgniteMapUnsafe K V) : Bool :=
  decide (m.capacity > 0 ∧ (m.stores.set.card : ℤ) ≥ m.capacity)

end BoundedIgniteMapUnsafe

/-! ### BoundedIgniteMap -/

structure BoundedIgniteMap (K V : Type) [DecidableEq K] where
  stores : Stores K V
  capacity : ℤ
  size : ℤ

namespace BoundedIgniteMap

def create (s : Stores K V) (capacity : ℤ) : BoundedIgniteMap K V :=
  ⟨s.reopen, capacity, s.reopen.set.card⟩

def put (m : BoundedIgniteMap K V) (key : K) (value : V) : Bool × BoundedIgniteMap K V :=
  if m.stores.cache.containsKey key then
    (true, { m with stores := m.stores.writes (updateWrites key value) })
  else if m.capacity > 0 ∧ m.size < m.capacity then
    (true, { m with stores := m.stores.writes (insertWrites key value), size := m.size + 1 })
  else (false, m)

def remove (m : BoundedIgniteMap K V) (key : K) : Option V × BoundedIgniteMap K V :=
  (m.stores.cache.get key,
    { m with
      stores := m.stores.writes (removeWrites key)
      size := if (m.stores.cache.get key).isSome then m.size - 1 else m.size })

def get (m : BoundedIgniteMap K V) (key : K) : Option V := m.stores.cache.get key

def isFull (m : BoundedIgniteMap K V) : Bool := decide (m.capacity > 0 ∧ m.size ≥ m.capacity)

end BoundedIgniteMap

/-- A call of `put` or `remove`. -/
inductive MapCall (K V : Type) where
  | put (key : K) (value : V)
  | remove (key : K)

namespace BoundedIgniteMapUnsafe

def perform (m : BoundedIgniteMapUnsafe K V) : MapCall K V → BoundedIgniteMapUnsafe K V
  | .put key value => (m.put key value).2
  | .remove key => (m.remove key).2

/-- The writes of a call, in their order. -/
def callWrites (m : BoundedIgniteMapUnsafe K V) : MapCall K V → List (Write K V)
  | .put key value =>
      if m.stores.cache.containsKey key then updateWrites key value
      else if m.capacity > 0 ∧ (m.stores.set.card : ℤ) < m.capacity then insertWrites key value
      else []
  | .remove key => removeWrites key

end BoundedIgniteMapUnsafe

namespace BoundedIgniteMap

def perform (m : BoundedIgniteMap K V) : MapCall K V → BoundedIgniteMap K V
  | .put key value => (m.put key value).2
  | .remove key => (m.remove key).2

/-- The writes of a call, in their order. -/
def callWrites (m : BoundedIgniteMap K V) : MapCall K V → List (Write K V)
  | .put key value =>
      if m.stores.cache.containsKey key then updateWrites key value
      else if m.capacity > 0 ∧ m.size < m.capacity then insertWrites key value
      else []
  | .remove key => removeWrites key

end BoundedIgniteMap

/-! ### The order of the writes -/

namespace Stores

variable {s : Stores K V}

/-- Every key of the cache is in the set. -/
def Covered (s : Stores K V) : Prop := ∀ key, s.cache.get key ≠ none → key ∈ s.set

/-- A write that leaves the cached keys in the set. -/
def Safe (s : Stores K V) : Write K V → Prop
  | .cachePut key _ => key ∈ s.set
  | .setRemove key => s.cache.get key = none
  | .setAdd _ | .cacheGetAndRemove _ => True

/-- Each of the writes is safe when its turn comes. -/
def Orderly (s : Stores K V) : List (Write K V) → Prop
  | [] => True
  | w :: ws => s.Safe w ∧ (s.write w).Orderly ws

lemma covered_empty : (empty : Stores K V).Covered := by
  intro key h
  exact absurd (PlainMap.get_empty key) h

lemma Covered.write (h : s.Covered) {w : Write K V} (hsafe : s.Safe w) : (s.write w).Covered := by
  intro key hkey
  cases w with
  | setAdd key' => exact Finset.mem_insert_of_mem (h key hkey)
  | cachePut key' value =>
      have hget : (s.cache.put key' value).get key ≠ none := hkey
      rw [PlainMap.get_put] at hget
      split_ifs at hget with heq
      · rw [heq]
        exact hsafe
      · exact h key hget
  | cacheGetAndRemove key' =>
      have hget : (s.cache.remove key').get key ≠ none := hkey
      rw [PlainMap.get_remove] at hget
      split_ifs at hget
      · contradiction
      · exact h key hget
  | setRemove key' =>
      refine Finset.mem_erase.2 ⟨?_, h key hkey⟩
      rintro rfl
      exact hkey hsafe

/-- The process may stop after any of the writes. -/
lemma Covered.writes_take (h : s.Covered) {ws : List (Write K V)} (hws : s.Orderly ws) (n : ℕ) :
    (s.writes (ws.take n)).Covered := by
  induction ws generalizing s n with
  | nil =>
      rw [List.take_nil]
      exact h
  | cons w ws ih =>
      cases n with
      | zero => exact h
      | succ n => exact ih (h.write hws.1) hws.2 n

lemma Covered.writes (h : s.Covered) {ws : List (Write K V)} (hws : s.Orderly ws) :
    (s.writes ws).Covered := by
  have htake := h.writes_take hws ws.length
  rwa [List.take_length] at htake

lemma Covered.orderly_update (h : s.Covered) {key : K} (hkey : s.cache.containsKey key = true)
    (value : V) : s.Orderly (updateWrites key value) :=
  ⟨h key ((PlainMap.containsKey_iff _ _).1 hkey), trivial⟩

/-- The key is in the set before its entry is in the cache. -/
lemma orderly_insert (s : Stores K V) (key : K) (value : V) : s.Orderly (insertWrites key value) :=
  ⟨trivial, Finset.mem_insert_self _ _, trivial⟩

/-- The entry is out of the cache before its key is out of the set. -/
lemma orderly_remove (s : Stores K V) (key : K) : s.Orderly (removeWrites key) :=
  ⟨trivial, PlainMap.get_remove_self _ _, trivial⟩

/-- Where the cached keys are in the set, a constructor leaves no others there. -/
lemma Covered.mem_reopen_iff (h : s.Covered) (key : K) :
    key ∈ s.reopen.set ↔ s.reopen.cache.get key ≠ none := by
  show key ∈ s.set.filter _ ↔ s.cache.get key ≠ none
  rw [Finset.mem_filter, PlainMap.containsKey_iff]
  exact and_iff_right_of_imp (h key)

lemma Covered.reopen (h : s.Covered) : s.reopen.Covered := fun key => (h.mem_reopen_iff key).2

/-- What `close` removes by the set is all there is. -/
lemma Covered.close_get (h : s.Covered) (key : K) : s.close.cache.get key = none := by
  show (s.cache.filterKeys _).get key = none
  rw [PlainMap.get_filterKeys]
  split_ifs with hmem
  · have hnot : key ∉ s.set := by simpa using hmem
    exact not_not.1 fun hget => hnot (h key hget)
  · rfl

end Stores

/-! ### Lives of a map -/

/-- What a class has to do with the stores. -/
structure MapClass (K V : Type) [DecidableEq K] where
  Map : Type
  stores : Map → Stores K V
  create : Stores K V → ℤ → Map
  perform : Map → MapCall K V → Map
  callWrites : Map → MapCall K V → List (Write K V)
  stores_create : ∀ s capacity, stores (create s capacity) = s.reopen
  stores_perform : ∀ m call, stores (perform m call) = (stores m).writes (callWrites m call)
  orderly : ∀ m call, (stores m).Covered → (stores m).Orderly (callWrites m call)

/-- The two classes. -/
inductive MapKind where
  | boundedIgniteMapUnsafe
  | boundedIgniteMap

def MapKind.toClass (K V : Type) [DecidableEq K] : MapKind → MapClass K V
  | .boundedIgniteMapUnsafe =>
      { Map := BoundedIgniteMapUnsafe K V
        stores := BoundedIgniteMapUnsafe.stores
        create := BoundedIgniteMapUnsafe.create
        perform := BoundedIgniteMapUnsafe.perform
        callWrites := BoundedIgniteMapUnsafe.callWrites
        stores_create := fun _ _ => rfl
        stores_perform := by
          rintro m (⟨key, value⟩ | key)
          · simp only [BoundedIgniteMapUnsafe.perform, BoundedIgniteMapUnsafe.put,
              BoundedIgniteMapUnsafe.callWrites]
            split_ifs <;> rfl
          · rfl
        orderly := by
          rintro m (⟨key, value⟩ | key) h
          · simp only [BoundedIgniteMapUnsafe.callWrites]
            split_ifs with hkey
            · exact h.orderly_update hkey value
            · exact m.stores.orderly_insert key value
            · trivial
          · exact m.stores.orderly_remove key }
  | .boundedIgniteMap =>
      { Map := BoundedIgniteMap K V
        stores := BoundedIgniteMap.stores
        create := BoundedIgniteMap.create
        perform := BoundedIgniteMap.perform
        callWrites := BoundedIgniteMap.callWrites
        stores_create := fun _ _ => rfl
        stores_perform := by
          rintro m (⟨key, value⟩ | key)
          · simp only [BoundedIgniteMap.perform, BoundedIgniteMap.put, BoundedIgniteMap.callWrites]
            split_ifs <;> rfl
          · rfl
        orderly := by
          rintro m (⟨key, value⟩ | key) h
          · simp only [BoundedIgniteMap.callWrites]
            split_ifs with hkey
            · exact h.orderly_update hkey value
            · exact m.stores.orderly_insert key value
            · trivial
          · exact m.stores.orderly_remove key }

/-- The map of a client: it is open, or the process has stopped and only the stores are left. -/
inductive Life (C : MapClass K V) where
  | running (m : C.Map)
  | stopped (s : Stores K V)

inductive LifeEvent (K V : Type) where
  | call (call : MapCall K V)
  /-- the process stops after the first `n` writes of a call -/
  | stop (call : MapCall K V) (n : ℕ)
  | reopen (capacity : ℤ)

namespace Life

variable {C : MapClass K V}

def stores : Life C → Stores K V
  | .running m => C.stores m
  | .stopped s => s

def step : Life C → LifeEvent K V → Option (Life C)
  | .running m, .call call => some (.running (C.perform m call))
  | .running m, .stop call n => some (.stopped ((C.stores m).writes ((C.callWrites m call).take n)))
  | .stopped _, .call _ | .stopped _, .stop _ _ => none
  | life, .reopen capacity => some (.running (C.create life.stores capacity))

lemma stores_reopen {life life' : Life C} {capacity : ℤ}
    (h : step life (.reopen capacity) = some life') : life'.stores = life.stores.reopen := by
  have hcreate := C.stores_create life.stores capacity
  cases life <;> exact (congrArg stores (Option.some.inj h)).symm.trans hcreate

lemma covered_step {life life' : Life C} {event : LifeEvent K V} (h : life.stores.Covered)
    (hstep : step life event = some life') : life'.stores.Covered := by
  cases event with
  | reopen capacity =>
      rw [stores_reopen hstep]
      exact h.reopen
  | call call =>
      cases life with
      | stopped s => contradiction
      | running m =>
          obtain rfl := Option.some.inj hstep
          show (C.stores (C.perform m call)).Covered
          rw [C.stores_perform]
          exact h.writes (C.orderly m call h)
  | stop call n =>
      cases life with
      | stopped s => contradiction
      | running m =>
          obtain rfl := Option.some.inj hstep
          exact h.writes_take (C.orderly m call h) n

end Life

/-- Whatever is called, and wherever the process stops between two writes: every cached key is in
the set, a constructor makes the set equal to the cached keys, and `close` leaves nothing in the
cache. -/
theorem covered_run (kind : MapKind) (events : List (LifeEvent K V))
    (life : Life (kind.toClass K V))
    (hrun : run Life.step (.stopped Stores.empty) events = some life) :
    (∀ key, life.stores.cache.get key ≠ none → key ∈ life.stores.set) ∧
    (∀ capacity life', life.step (.reopen capacity) = some life' →
      ∀ key, key ∈ life'.stores.set ↔ life'.stores.cache.get key ≠ none) ∧
    ∀ key, life.stores.close.cache.get key = none := by
  have hcovered : life.stores.Covered := by
    refine invariant_run (I := fun life => life.stores.Covered) (P := fun _ _ => True) ?_ ?_
      (allSteps_true _ _) hrun
    · intro life event life' _ h _ hstep
      exact Life.covered_step h hstep
    · exact Stores.covered_empty
  refine ⟨hcovered, fun capacity life' hstep key => ?_, hcovered.close_get⟩
  rw [Life.stores_reopen hstep]
  exact hcovered.mem_reopen_iff key

/-- The process stops while an entry is stored, and again after its key was put back. -/
theorem covered_run_stopped : ∃ life : Life (MapKind.boundedIgniteMap.toClass ℕ ℕ),
    run Life.step (.stopped Stores.empty) [.reopen 2, .stop (.put 1 7) 1, .reopen 1,
      .call (.put 1 8), .stop (.remove 1) 1] = some life ∧
    (∀ key, life.stores.cache.get key ≠ none → key ∈ life.stores.set) ∧
    (∀ capacity life', life.step (.reopen capacity) = some life' →
      ∀ key, key ∈ life'.stores.set ↔ life'.stores.cache.get key ≠ none) ∧
    ∀ key, life.stores.close.cache.get key = none :=
  ⟨_, rfl, covered_run .boundedIgniteMap [.reopen 2, .stop (.put 1 7) 1, .reopen 1,
    .call (.put 1 8), .stop (.remove 1) 1] _ rfl⟩

/-! ### Room -/

/-- What `put` asks of the capacity follows from what `isFull` asks iff the capacity is
positive. -/
lemma room_iff (capacity size : ℤ) :
    (decide (capacity > 0 ∧ size ≥ capacity) = false → capacity > 0 ∧ size < capacity) ↔
      0 < capacity := by
  rw [decide_eq_false_iff_not]
  constructor
  · intro h
    by_contra hpos
    exact hpos (h fun hfull => hpos hfull.1).1
  · intro hpos hfull
    exact ⟨hpos, Int.not_le.1 fun hge => hfull ⟨hpos, hge⟩⟩

namespace BoundedIgniteMapUnsafe

/-- The map takes the value of a key unless it says that it is full. -/
def Takes (m : BoundedIgniteMapUnsafe K V) (key : K) (value : V) : Prop :=
  m.isFull = false → (m.put key value).1 = true ∧ (m.put key value).2.get key = some value

lemma takes_iff {m : BoundedIgniteMapUnsafe K V} {key : K} (hnew : m.get key = none) (value : V) :
    m.Takes key value ↔ 0 < m.capacity := by
  have hkey : m.stores.cache.containsKey key = false := congrArg Option.isSome hnew
  have hput : m.capacity > 0 ∧ (m.stores.set.card : ℤ) < m.capacity ↔
      (m.put key value).1 = true ∧ (m.put key value).2.get key = some value := by
    simp only [put]
    rw [if_neg (by simp [hkey])]
    split_ifs with hroom
    · exact iff_of_true hroom ⟨rfl, PlainMap.get_put_self _ _ _⟩
    · exact iff_of_false hroom fun h => absurd h.1 (by decide)
  rw [← room_iff m.capacity m.stores.set.card, hput]
  rfl

lemma capacity_foldl (m : BoundedIgniteMapUnsafe K V) (calls : List (MapCall K V)) :
    (calls.foldl perform m).capacity = m.capacity := by
  induction calls generalizing m with
  | nil => rfl
  | cons call calls ih =>
      rw [List.foldl_cons, ih]
      cases call with
      | put key value =>
          simp only [perform, put]
          split_ifs <;> rfl
      | remove key => rfl

end BoundedIgniteMapUnsafe

namespace BoundedIgniteMap

/-- The map takes the value of a key unless it says that it is full. -/
def Takes (m : BoundedIgniteMap K V) (key : K) (value : V) : Prop :=
  m.isFull = false → (m.put key value).1 = true ∧ (m.put key value).2.get key = some value

lemma takes_iff {m : BoundedIgniteMap K V} {key : K} (hnew : m.get key = none) (value : V) :
    m.Takes key value ↔ 0 < m.capacity := by
  have hkey : m.stores.cache.containsKey key = false := congrArg Option.isSome hnew
  have hput : m.capacity > 0 ∧ m.size < m.capacity ↔
      (m.put key value).1 = true ∧ (m.put key value).2.get key = some value := by
    simp only [put]
    rw [if_neg (by simp [hkey])]
    split_ifs with hroom
    · exact iff_of_true hroom ⟨rfl, PlainMap.get_put_self _ _ _⟩
    · exact iff_of_false hroom fun h => absurd h.1 (by decide)
  rw [← room_iff m.capacity m.size, hput]
  rfl

lemma capacity_foldl (m : BoundedIgniteMap K V) (calls : List (MapCall K V)) :
    (calls.foldl perform m).capacity = m.capacity := by
  induction calls generalizing m with
  | nil => rfl
  | cons call calls ih =>
      rw [List.foldl_cons, ih]
      cases call with
      | put key value =>
          simp only [perform, put]
          split_ifs <;> rfl
      | remove key => rfl

end BoundedIgniteMap

/-- In every state that calls lead to from a constructor, over whatever is stored, a map of either
class that is not full takes a new key iff its capacity is positive. -/
theorem takes_iff_pos (s : Stores K V) (capacity : ℤ) (calls : List (MapCall K V)) (key : K)
    (value : V) :
    ((calls.foldl BoundedIgniteMapUnsafe.perform (.create s capacity)).get key = none →
      ((calls.foldl BoundedIgniteMapUnsafe.perform (.create s capacity)).Takes key value ↔
        0 < capacity)) ∧
    ((calls.foldl BoundedIgniteMap.perform (.create s capacity)).get key = none →
      ((calls.foldl BoundedIgniteMap.perform (.create s capacity)).Takes key value ↔
        0 < capacity)) := by
  constructor
  · intro hnew
    rw [BoundedIgniteMapUnsafe.takes_iff hnew, BoundedIgniteMapUnsafe.capacity_foldl]
    rfl
  · intro hnew
    rw [BoundedIgniteMap.takes_iff hnew, BoundedIgniteMap.capacity_foldl]
    rfl

theorem takes_iff_pos_one :
    ((BoundedIgniteMapUnsafe.create (Stores.empty : Stores ℕ ℕ) 1).Takes 1 7 ↔ (0 : ℤ) < 1) ∧
    ((BoundedIgniteMap.create (Stores.empty : Stores ℕ ℕ) 1).Takes 1 7 ↔ (0 : ℤ) < 1) :=
  ⟨(takes_iff_pos Stores.empty 1 [] 1 7).1 rfl, (takes_iff_pos Stores.empty 1 [] 1 7).2 rfl⟩

/-- With capacity 0 a map is never full and takes nothing. -/
theorem not_takes :
    ¬(BoundedIgniteMapUnsafe.create (Stores.empty : Stores ℕ ℕ) 0).Takes 1 7 ∧
    ¬(BoundedIgniteMap.create (Stores.empty : Stores ℕ ℕ) 0).Takes 1 7 := by
  constructor
  · intro h
    exact absurd (h rfl).1 (by decide)
  · intro h
    exact absurd (h rfl).1 (by decide)

end IgniteStores

/-! ### The maps whose calls run to their end -/

variable {K V : Type} [DecidableEq K]

namespace BoundedIgniteMapUnsafe

/-- The map over its stores. -/
def toStored (m : BoundedIgniteMapUnsafe K V) : IgniteStores.BoundedIgniteMapUnsafe K V :=
  ⟨⟨m.cache, m.set.toFinset⟩, m.capacity⟩

variable (m : BoundedIgniteMapUnsafe K V)

lemma card_toStored : m.toStored.stores.set.card = m.set.length :=
  List.toFinset_card_of_nodup m.nodup

lemma toFinset_insert (key : K) (value : V) :
    (m.insert key value).set.toFinset = Insert.insert key m.set.toFinset := by
  ext key'
  by_cases h : key ∈ m.set
  · simp only [BoundedIgniteMapUnsafe.insert, if_pos h, List.mem_toFinset, Finset.mem_insert]
    exact ⟨Or.inr, fun h' => h'.elim (fun heq => heq ▸ h) id⟩
  · simp only [BoundedIgniteMapUnsafe.insert, if_neg h, List.mem_toFinset, Finset.mem_insert,
      List.mem_append, List.mem_singleton]
    exact or_comm

lemma toFinset_remove (key : K) : (m.remove key).set.toFinset = m.set.toFinset.erase key := by
  ext key'
  simp only [BoundedIgniteMapUnsafe.remove, List.mem_toFinset, Finset.mem_erase,
    m.nodup.mem_erase_iff]

theorem toStored_put (key : K) (value : V) :
    m.toStored.put key value = ((m.put key value).1, (m.put key value).2.toStored) := by
  have hset : m.cache.containsKey key = true →
      Insert.insert key m.set.toFinset = m.set.toFinset := by
    intro hkey
    refine Finset.insert_eq_of_mem (List.mem_toFinset.2 ((m.mem_set key).2 ?_))
    exact (PlainMap.containsKey_iff _ _).1 hkey
  simp only [IgniteStores.BoundedIgniteMapUnsafe.put, put]
  rw [card_toStored]
  show (if m.cache.containsKey key then _
    else if m.capacity > 0 ∧ (m.set.length : ℤ) < m.capacity then _ else _) = _
  split_ifs with hkey hroom
  · simp only [toStored]
    rw [toFinset_insert, hset hkey]
    rfl
  · simp only [toStored]
    rw [toFinset_insert]
    rfl
  · rfl

theorem toStored_remove (key : K) : m.toStored.remove key =
    (m.get key, (m.remove key).toStored) := by
  simp only [toStored]
  rw [toFinset_remove]
  rfl

theorem toStored_reopen (capacity : ℤ) :
    IgniteStores.BoundedIgniteMapUnsafe.create m.toStored.stores capacity =
      (m.reopen capacity).toStored := by
  simp only [toStored]
  rw [reopen, List.toFinset_filter]
  rfl

/-- A value under a key that is there leaves the keys as they are. -/
lemma stores_insert_of_get {key : K} (h : m.get key ≠ none) (value : V) :
    (m.insert key value).toStored.stores =
      m.toStored.stores.writes (IgniteStores.updateWrites key value) := by
  simp only [toStored]
  rw [insert_set_of_get m h]
  rfl

lemma stores_insert (key : K) (value : V) : (m.insert key value).toStored.stores =
    m.toStored.stores.writes (IgniteStores.insertWrites key value) := by
  simp only [toStored]
  rw [toFinset_insert]
  rfl

end BoundedIgniteMapUnsafe

namespace BoundedIgniteMap

/-- The map over its stores. -/
def toStored (m : BoundedIgniteMap K V) : IgniteStores.BoundedIgniteMap K V :=
  ⟨m.toBoundedIgniteMapUnsafe.toStored.stores, m.capacity, m.size⟩

variable (m : BoundedIgniteMap K V)

theorem toStored_put (key : K) (value : V) :
    m.toStored.put key value = ((m.put key value).1, (m.put key value).2.toStored) := by
  simp only [IgniteStores.BoundedIgniteMap.put, put]
  by_cases hkey : m.get key ≠ none
  · have hcontains : m.toStored.stores.cache.containsKey key = true :=
      (PlainMap.containsKey_iff _ _).2 hkey
    rw [dif_pos hkey, if_pos hcontains]
    simp only [toStored]
    rw [BoundedIgniteMapUnsafe.stores_insert_of_get _ hkey]
    rfl
  · have hcontains : ¬m.toStored.stores.cache.containsKey key = true :=
      fun h => hkey ((PlainMap.containsKey_iff _ _).1 h)
    rw [dif_neg hkey, if_neg hcontains]
    show (if m.capacity > 0 ∧ (m.size : ℤ) < m.capacity then _ else _) = _
    split_ifs with hroom
    · simp only [toStored]
      rw [BoundedIgniteMapUnsafe.stores_insert]
      rfl
    · rfl

theorem toStored_remove (key : K) :
    m.toStored.remove key = ((m.remove key).1, (m.remove key).2.toStored) := by
  have hstores : (m.toBoundedIgniteMapUnsafe.remove key).toStored.stores =
      m.toStored.stores.writes (IgniteStores.removeWrites key) :=
    congrArg IgniteStores.BoundedIgniteMapUnsafe.stores
      (congrArg Prod.snd (m.toBoundedIgniteMapUnsafe.toStored_remove key)).symm
  simp only [IgniteStores.BoundedIgniteMap.remove, remove]
  by_cases hkey : m.get key ≠ none
  · have hmem : key ∈ m.set := (m.mem_set key).2 hkey
    have hpos : 0 < m.size := by
      rw [m.size_eq]
      exact List.length_pos_of_mem hmem
    have hsome : (m.toStored.stores.cache.get key).isSome = true :=
      Option.isSome_iff_ne_none.2 hkey
    rw [dif_pos hkey, if_pos hsome, ← hstores]
    refine Prod.ext rfl ?_
    show IgniteStores.BoundedIgniteMap.mk _ _ ((m.size : ℤ) - 1) =
      IgniteStores.BoundedIgniteMap.mk _ _ ((m.size - 1 : ℕ) : ℤ)
    rw [Int.ofNat_sub hpos]
    rfl
  · have hnone : m.toStored.stores.cache.get key = none := not_not.1 hkey
    rw [dif_neg hkey, if_neg (by simp [hnone]), ← hstores, hnone]
    rfl

end BoundedIgniteMap

end Stuart
