/-
The bounded collections of a session.

A queue that is full gives up its first element for a new last one; `addExt` tells by its count
whether it did.  The map of a persistent session keeps the keys it holds in a set of its own:
the set decides whether there is room for a new key.  A capacity that is not positive means no
bound to a queue and to `isFull`, but no room at all to `put`.
-/
import Stuart.Lib.PlainMap

namespace Stuart

open List Lib

/-- A bounded queue: its capacity and its elements, the first one in front. -/
structure BoundedQueue (E : Type) where
  capacity : ℤ
  items : List E
deriving DecidableEq

namespace BoundedQueue

variable {E : Type}

/-- No further element fits in. -/
def isFull (q : BoundedQueue E) : Bool :=
  decide (q.capacity > 0 ∧ (q.items.length : ℤ) ≥ q.capacity)

/-- The bound holds. -/
def Bounded (q : BoundedQueue E) : Prop := q.capacity > 0 → (q.items.length : ℤ) ≤ q.capacity

/-- The queue of the values of the elements. -/
def map {F : Type} (f : E → F) (q : BoundedQueue E) : BoundedQueue F := ⟨q.capacity, q.items.map f⟩

/-- The elements that are given up for a new one: the first one of a full queue. -/
def evicted (q : BoundedQueue E) : List E := if q.isFull then q.items.take 1 else []

lemma evicted_append (q : BoundedQueue E) :
    q.evicted ++ (if q.isFull then q.items.tail else q.items) = q.items := by
  simp only [evicted]
  split_ifs
  · rw [← drop_one, take_append_drop]
  · rfl

end BoundedQueue

namespace BoundedConcurrentLinkedQueue

variable {E : Type}

/-- `offer`, which `add` of the superclass calls as well. -/
def offer (q : BoundedQueue E) (element : E) : BoundedQueue E :=
  { q with items := (if q.isFull then q.items.tail else q.items) ++ [element] }

def addExt (q : BoundedQueue E) (element : E) : ℤ × BoundedQueue E :=
  if q.isFull then (1, offer { q with items := q.items.tail } element) else (0, offer q element)

/-- The new element comes last, and others may only go out. -/
lemma offer_sublist (q : BoundedQueue E) (element : E) :
    (offer q element).items <+ q.items ++ [element] := by
  simp only [offer]
  refine Sublist.append_right ?_ _
  split_ifs
  · exact tail_sublist _
  · exact Sublist.refl _

lemma addExt_sublist (q : BoundedQueue E) (element : E) :
    (addExt q element).2.items <+ q.items ++ [element] := by
  simp only [addExt]
  split_ifs
  · exact (offer_sublist _ _).trans ((tail_sublist _).append_right _)
  · exact offer_sublist _ _

/-- An `addExt` always succeeds. -/
lemma addExt_nonneg (q : BoundedQueue E) (element : E) : (addExt q element).1 ≥ 0 := by
  simp only [addExt]
  split_ifs
  · exact Int.one_nonneg
  · exact Int.le_refl 0

/-- What `addExt` does depends on how many elements there are only. -/
lemma addExt_map {F : Type} (f : E → F) (q : BoundedQueue E) (element : E) :
    addExt (q.map f) (f element) = ((addExt q element).1, (addExt q element).2.map f) := by
  unfold addExt offer BoundedQueue.isFull BoundedQueue.map
  simp only [length_map, length_tail, ← map_tail]
  split_ifs <;> simp

end BoundedConcurrentLinkedQueue

namespace BoundedIgniteQueue

variable {E : Type}

/-- The loop of `offerExt` over the elements that are still there: poll until the Ignite queue
takes the new element. -/
def offerExtFrom (capacity : ℤ) (element : E) (count : ℤ) : List E → ℤ × BoundedQueue E
  | [] => (count, ⟨capacity, [element]⟩)
  | first :: rest =>
      if BoundedQueue.isFull ⟨capacity, first :: rest⟩ then offerExtFrom capacity element 1 rest
      else (count, ⟨capacity, first :: rest ++ [element]⟩)

def addExt (q : BoundedQueue E) (element : E) : ℤ × BoundedQueue E :=
  offerExtFrom q.capacity element 0 q.items

end BoundedIgniteQueue

namespace BoundedQueue

variable {E : Type}

lemma isFull_tail {q : BoundedQueue E} (h : q.Bounded) (hfull : q.isFull = true) :
    isFull { q with items := q.items.tail } = false := by
  simp only [isFull, decide_eq_true_eq, decide_eq_false_iff_not] at hfull ⊢
  obtain ⟨hpos, hge⟩ := hfull
  have hle := h hpos
  have hlen : (q.items.tail.length : ℤ) = q.items.length - 1 := by
    rw [length_tail]
    omega
  intro hfull'
  omega

/-- What `addExt` does to a queue that keeps its bound, in either implementation. -/
def append (q : BoundedQueue E) (element : E) : BoundedQueue E :=
  { q with items := (if q.isFull then q.items.tail else q.items) ++ [element] }

lemma addExt_concurrent {q : BoundedQueue E} (h : q.Bounded) (element : E) :
    BoundedConcurrentLinkedQueue.addExt q element =
      (if q.isFull then 1 else 0, q.append element) := by
  simp only [BoundedConcurrentLinkedQueue.addExt, BoundedConcurrentLinkedQueue.offer, append]
  by_cases hfull : q.isFull = true
  · rw [if_pos hfull, if_neg (by simp [isFull_tail h hfull]), if_pos hfull, if_pos hfull]
  · rw [if_neg hfull, if_neg hfull, if_neg hfull]

lemma addExt_ignite {q : BoundedQueue E} (h : q.Bounded) (element : E) :
    BoundedIgniteQueue.addExt q element = (if q.isFull then 1 else 0, q.append element) := by
  have hfit : ∀ (count : ℤ) (items : List E), isFull ⟨q.capacity, items⟩ = false →
      BoundedIgniteQueue.offerExtFrom q.capacity element count items =
        (count, ⟨q.capacity, items ++ [element]⟩) := by
    intro count items hfull
    cases items with
    | nil => rfl
    | cons first rest => rw [BoundedIgniteQueue.offerExtFrom, if_neg (by simp [hfull])]
  simp only [BoundedIgniteQueue.addExt, append]
  by_cases hfull : q.isFull = true
  · have htail := isFull_tail h hfull
    rw [if_pos hfull, if_pos hfull]
    cases hitems : q.items with
    | nil =>
        simp only [isFull, hitems, decide_eq_true_eq, length_nil] at hfull
        omega
    | cons first rest =>
        rw [BoundedIgniteQueue.offerExtFrom, ← hitems, if_pos hfull, hfit 1 rest]
        · simp [hitems]
        · simpa [hitems] using htail
  · rw [if_neg hfull, if_neg hfull, hfit 0 q.items (by simpa using hfull)]

lemma Bounded.append {q : BoundedQueue E} (h : q.Bounded) (element : E) :
    (q.append element).Bounded := by
  intro hpos
  have hle := h hpos
  simp only [BoundedQueue.append]
  by_cases hfull : q.isFull = true
  · simp only [isFull, decide_eq_true_eq] at hfull
    have : (q.items.tail.length : ℤ) = q.items.length - 1 := by
      rw [length_tail]
      omega
    simp only [isFull, hfull, and_self, decide_true, if_true, length_append, length_singleton]
    push_cast
    omega
  · have hnot := hfull
    simp only [isFull, decide_eq_true_eq, not_and] at hnot
    have := hnot hpos
    simp only [hfull, length_append, length_singleton]
    push_cast
    omega

/-- A new last element, and the first one given up if there was no room. -/
lemma evicted_append_items (q : BoundedQueue E) (element : E) :
    q.evicted ++ (q.append element).items = q.items ++ [element] := by
  rw [append, ← append_assoc, evicted_append]

lemma length_evicted {q : BoundedQueue E} :
    (q.evicted.length : ℤ) = if q.isFull then 1 else 0 := by
  simp only [evicted]
  by_cases hfull : q.isFull = true
  · have hne : 0 < q.items.length := by
      simp only [isFull, decide_eq_true_eq] at hfull
      omega
    rw [if_pos hfull, if_pos hfull, length_take]
    omega
  · rw [if_neg hfull, if_neg hfull]
    rfl

end BoundedQueue

/-- The map of the inflight messages of a persistent session: an Ignite cache and the set of its
keys. -/
structure BoundedIgniteMapUnsafe (K V : Type) [DecidableEq K] where
  cache : PlainMap K V
  set : List K
  capacity : ℤ
  nodup : set.Nodup
  mem_set : ∀ key, key ∈ set ↔ cache.get key ≠ none

namespace BoundedIgniteMapUnsafe

variable {K V : Type} [DecidableEq K]

/-- An empty cache with an empty set. -/
def create (capacity : ℤ) : BoundedIgniteMapUnsafe K V where
  cache := ∅
  set := []
  capacity := capacity
  nodup := nodup_nil
  mem_set := by simp

/-- The constructor over a stored cache and set: keys that are not in the cache are dropped. -/
def reopen (m : BoundedIgniteMapUnsafe K V) (capacity : ℤ) : BoundedIgniteMapUnsafe K V where
  cache := m.cache
  set := m.set.filter m.cache.containsKey
  capacity := capacity
  nodup := m.nodup.filter _
  mem_set := by
    intro key
    rw [mem_filter, m.mem_set, PlainMap.containsKey_iff, and_self]

/-- `cache.put` with `set.add`. -/
def insert (m : BoundedIgniteMapUnsafe K V) (key : K) (value : V) : BoundedIgniteMapUnsafe K V where
  cache := m.cache.put key value
  set := if key ∈ m.set then m.set else m.set ++ [key]
  capacity := m.capacity
  nodup := by
    split_ifs with h
    · exact m.nodup
    · exact nodup_append'.2 ⟨m.nodup, nodup_singleton _, by simpa using h⟩
  mem_set := by
    intro key'
    rw [PlainMap.get_put]
    have hset := m.mem_set key'
    by_cases heq : key' = key
    · subst heq
      by_cases h : key' ∈ m.set <;> simp [h]
    · by_cases h : key ∈ m.set <;> simp [h, heq, hset]

def put (m : BoundedIgniteMapUnsafe K V) (key : K) (value : V) :
    Bool × BoundedIgniteMapUnsafe K V :=
  if m.cache.containsKey key then (true, m.insert key value)
  else if m.capacity > 0 ∧ (m.set.length : ℤ) < m.capacity then (true, m.insert key value)
  else (false, m)

def remove (m : BoundedIgniteMapUnsafe K V) (key : K) : BoundedIgniteMapUnsafe K V where
  cache := m.cache.remove key
  set := m.set.erase key
  capacity := m.capacity
  nodup := m.nodup.erase key
  mem_set := by
    intro key'
    rw [m.nodup.mem_erase_iff, m.mem_set, PlainMap.get_remove]
    split_ifs with h <;> simp [h]

def get (m : BoundedIgniteMapUnsafe K V) (key : K) : Option V := m.cache.get key

def size (m : BoundedIgniteMapUnsafe K V) : ℕ := m.set.length

def isFull (m : BoundedIgniteMapUnsafe K V) : Bool :=
  decide (m.capacity > 0 ∧ (m.set.length : ℤ) ≥ m.capacity)

/-! ### Lookups -/

variable (m : BoundedIgniteMapUnsafe K V)

/-- A value is stored under a key that is there already, and under a new one if there is room. -/
def accepts (key : K) : Prop :=
  m.get key ≠ none ∨ (m.capacity > 0 ∧ (m.set.length : ℤ) < m.capacity)

instance (key : K) : Decidable (m.accepts key) := inferInstanceAs (Decidable (_ ∨ _))

lemma put_of_accepts {key : K} (h : m.accepts key) (value : V) :
    (m.put key value).2 = m.insert key value := by
  simp only [put]
  rcases h with h | h
  · rw [if_pos (by simpa [get] using h)]
  · by_cases hkey : m.cache.containsKey key = true
    · rw [if_pos hkey]
    · rw [if_neg hkey, if_pos h]

lemma put_of_not_accepts {key : K} (h : ¬m.accepts key) (value : V) : (m.put key value).2 = m := by
  rw [accepts, not_or] at h
  simp only [put]
  rw [if_neg (by simpa [get] using h.1), if_neg h.2]

@[simp] lemma get_insert (key key' : K) (value : V) :
    (m.insert key value).get key' = if key' = key then some value else m.get key' :=
  m.cache.get_put key key' value

@[simp] lemma get_remove (key key' : K) :
    (m.remove key).get key' = if key' = key then none else m.get key' :=
  m.cache.get_remove key key'

/-- A value found after `put` is the new one or was there before. -/
lemma eq_or_get_of_get_put {key key' : K} {value value' : V}
    (h : (m.put key value).2.get key' = some value') :
    key' = key ∧ value' = value ∨ m.get key' = some value' := by
  by_cases hacc : m.accepts key
  · rw [m.put_of_accepts hacc] at h
    exact m.cache.eq_or_get_of_get_put h
  · rw [m.put_of_not_accepts hacc] at h
    exact Or.inr h

@[simp] lemma get_reopen (capacity : ℤ) (key : K) : (m.reopen capacity).get key = m.get key := rfl

lemma insert_set_of_get {key : K} (h : m.get key ≠ none) (value : V) :
    (m.insert key value).set = m.set := if_pos ((m.mem_set key).2 h)

lemma insert_set_of_get_none {key : K} (h : m.get key = none) (value : V) :
    (m.insert key value).set = m.set ++ [key] := if_neg fun hmem => (m.mem_set key).1 hmem h

/-- A reopened map keeps its keys, since every one of them is in the cache. -/
@[simp] lemma reopen_set (capacity : ℤ) : (m.reopen capacity).set = m.set :=
  filter_eq_self.2 fun key hkey => (PlainMap.containsKey_iff _ _).2 ((m.mem_set key).1 hkey)

end BoundedIgniteMapUnsafe

/-- The map of the await messages of a persistent session.  It counts its keys in a field, which
decides whether there is room for a new key. -/
structure BoundedIgniteMap (K V : Type) [DecidableEq K] extends BoundedIgniteMapUnsafe K V where
  size : ℕ
  size_eq : size = set.length

namespace BoundedIgniteMap

variable {K V : Type} [DecidableEq K]

def create (capacity : ℤ) : BoundedIgniteMap K V :=
  ⟨BoundedIgniteMapUnsafe.create capacity, 0, rfl⟩

/-- The constructor over a stored cache and set. -/
def reopen (m : BoundedIgniteMap K V) (capacity : ℤ) : BoundedIgniteMap K V :=
  ⟨m.toBoundedIgniteMapUnsafe.reopen capacity,
    (m.toBoundedIgniteMapUnsafe.reopen capacity).set.length, rfl⟩

def get (m : BoundedIgniteMap K V) (key : K) : Option V := m.toBoundedIgniteMapUnsafe.get key

def put (m : BoundedIgniteMap K V) (key : K) (value : V) : Bool × BoundedIgniteMap K V :=
  if h : m.get key ≠ none then
    (true, ⟨m.insert key value, m.size, by
      rw [m.size_eq, BoundedIgniteMapUnsafe.insert_set_of_get _ h]⟩)
  else if m.capacity > 0 ∧ (m.size : ℤ) < m.capacity then
    (true, ⟨m.insert key value, m.size + 1, by
      rw [m.size_eq, BoundedIgniteMapUnsafe.insert_set_of_get_none _ (not_not.1 h), length_append,
        length_singleton]⟩)
  else (false, m)

def remove (m : BoundedIgniteMap K V) (key : K) : Option V × BoundedIgniteMap K V :=
  if h : m.get key ≠ none then
    (m.get key, ⟨m.toBoundedIgniteMapUnsafe.remove key, m.size - 1, by
      rw [m.size_eq]
      exact (length_erase_of_mem ((m.mem_set key).2 h)).symm⟩)
  else
    (none, ⟨m.toBoundedIgniteMapUnsafe.remove key, m.size, by
      rw [m.size_eq]
      exact (congrArg length (erase_of_not_mem fun hmem => h ((m.mem_set key).1 hmem))).symm⟩)

/-- A value is stored if its key is there already or there is room. -/
lemma put_of_room (m : BoundedIgniteMap K V) {key : K} (value : V) (hcap : 0 < m.capacity)
    (h : m.get key ≠ none ∨ (m.size : ℤ) < m.capacity) : (m.put key value).1 = true ∧
      (m.put key value).2.capacity = m.capacity ∧
      ∀ key', (m.put key value).2.get key' = if key' = key then some value else m.get key' := by
  have hinsert := BoundedIgniteMapUnsafe.get_insert m.toBoundedIgniteMapUnsafe key
  simp only [put]
  split_ifs with hget hroom
  · exact ⟨rfl, rfl, fun key' => hinsert key' value⟩
  · exact ⟨rfl, rfl, fun key' => hinsert key' value⟩
  · exact absurd ⟨hcap, h.resolve_left hget⟩ hroom

lemma put_of_full (m : BoundedIgniteMap K V) {key : K} (value : V)
    (h : ¬(m.get key ≠ none ∨ (m.size : ℤ) < m.capacity)) : m.put key value = (false, m) := by
  simp only [put]
  rw [dif_neg fun hget => h (Or.inl hget), if_neg fun hroom => h (Or.inr hroom.2)]

lemma remove_eq (m : BoundedIgniteMap K V) (key : K) : (m.remove key).1 = m.get key ∧
    (m.remove key).2.capacity = m.capacity ∧
    ∀ key', (m.remove key).2.get key' = if key' = key then none else m.get key' := by
  have hremove := BoundedIgniteMapUnsafe.get_remove m.toBoundedIgniteMapUnsafe key
  simp only [remove]
  split_ifs with hget
  · exact ⟨rfl, rfl, hremove⟩
  · exact ⟨(not_not.1 hget).symm, rfl, hremove⟩

end BoundedIgniteMap

/-- The map of the await messages of a transient session, as long as no entry expires. -/
structure ExpiringMap (K V : Type) [DecidableEq K] where
  entries : PlainMap K V
  maxSize : ℤ

namespace ExpiringMap

variable {K V : Type} [DecidableEq K]

def create (maxSize : ℤ) : ExpiringMap K V := ⟨∅, maxSize⟩

/-- The size that `CacheUtil.expiringMap` gives the map: one that is not positive is not set. -/
def sizeOf (maxSize : ℤ) : ℤ := if maxSize > 0 then maxSize else 2147483647

def get (m : ExpiringMap K V) (key : K) : Option V := m.entries.get key

def size (m : ExpiringMap K V) : ℕ := m.entries.values.length

/-- A stored value is replaced: the new one is another object, and its class has no `equals`. -/
def putExt (m : ExpiringMap K V) (key : K) (value : V) : Bool × ExpiringMap K V :=
  if m.entries.containsKey key then (true, { m with entries := m.entries.put key value })
  else if (m.size : ℤ) ≥ m.maxSize then (false, m)
  else (true, { m with entries := m.entries.put key value })

def remove (m : ExpiringMap K V) (key : K) : Option V × ExpiringMap K V :=
  (m.entries.get key, { m with entries := m.entries.remove key })

/-- A value is stored if its key is there already or there is room. -/
lemma putExt_of_room (m : ExpiringMap K V) {key : K} (value : V)
    (h : m.get key ≠ none ∨ (m.size : ℤ) < m.maxSize) : m.putExt key value =
      (true, { m with entries := m.entries.put key value }) := by
  simp only [putExt]
  by_cases hget : m.entries.containsKey key = true
  · rw [if_pos hget]
  · have hroom := h.resolve_left fun hne => hget ((PlainMap.containsKey_iff _ _).2 hne)
    rw [if_neg hget, if_neg (by omega)]

lemma putExt_of_full (m : ExpiringMap K V) {key : K} (value : V)
    (h : ¬(m.get key ≠ none ∨ (m.size : ℤ) < m.maxSize)) : m.putExt key value = (false, m) := by
  simp only [putExt]
  have hfull : (m.size : ℤ) ≥ m.maxSize := Int.not_lt.1 fun hroom => h (Or.inr hroom)
  rw [if_neg fun hget => h (Or.inl ((PlainMap.containsKey_iff _ _).1 hget)), if_pos hfull]

lemma maxSize_putExt (m : ExpiringMap K V) (key : K) (value : V) :
    (m.putExt key value).2.maxSize = m.maxSize := by
  simp only [putExt]
  split_ifs <;> rfl

/-- A value found after `putExt` is the new one or was there before. -/
lemma eq_or_get_of_get_putExt {m : ExpiringMap K V} {key key' : K} {value value' : V}
    (h : (m.putExt key value).2.get key' = some value') :
    value' = value ∨ m.get key' = some value' := by
  by_cases hroom : m.get key ≠ none ∨ (m.size : ℤ) < m.maxSize
  · rw [m.putExt_of_room value hroom] at h
    exact (m.entries.eq_or_get_of_get_put h).imp And.right id
  · rw [m.putExt_of_full value hroom] at h
    exact Or.inr h

end ExpiringMap

end Stuart
