/-
Plain finite maps, as a key-value cache offers them: `get`, `put`, `remove` and an
iteration over the entries.  The entries are a Mathlib `AList`, so that no key occurs
twice, and the lemmas below say what each operation does to a lookup and to the entries
as a multiset.  The latter is what a count over the entries needs.
-/
import Mathlib.Data.List.AList

namespace Lib

open List

/-- A finite map that holds at most one value for each key. -/
abbrev PlainMap (K V : Type*) := AList fun _ : K => V

namespace PlainMap

variable {K V : Type*} [DecidableEq K]

/-- The value stored under `k`. -/
def get (m : PlainMap K V) (k : K) : Option V := m.lookup k

/-- Store `v` under `k`, replacing what was there. -/
def put (m : PlainMap K V) (k : K) (v : V) : PlainMap K V := m.insert k v

/-- Drop the entry of `k`, if there is one. -/
def remove (m : PlainMap K V) (k : K) : PlainMap K V := m.erase k

/-- Whether a value is stored under `k`. -/
def containsKey (m : PlainMap K V) (k : K) : Bool := (m.get k).isSome

/-- The stored values, in the order of iteration. -/
def values (m : PlainMap K V) : List V := m.entries.map Sigma.snd

/-- The number of entries that satisfy `p`. -/
def count (p : K → V → Bool) (m : PlainMap K V) : ℕ := m.entries.countP fun e => p e.1 e.2

/-- Keep the entries whose keys satisfy `p`. -/
def filterKeys (p : K → Bool) (m : PlainMap K V) : PlainMap K V :=
  ⟨m.entries.filter fun e => p e.1, m.nodupKeys.sublist filter_sublist⟩

/-- Change every stored value. -/
def mapValues (f : V → V) (m : PlainMap K V) : PlainMap K V :=
  ⟨m.entries.map (Sigma.map id fun _ => f), m.nodupKeys.map₂ (fun _ => f) m.entries⟩

/-! ### Lookups -/

@[simp] lemma get_empty (k : K) : (∅ : PlainMap K V).get k = none := AList.lookup_empty k

@[simp] lemma get_put_self (m : PlainMap K V) (k : K) (v : V) : (m.put k v).get k = some v :=
  AList.lookup_insert m

lemma get_put_of_ne (m : PlainMap K V) {k k' : K} (h : k' ≠ k) (v : V) :
    (m.put k v).get k' = m.get k' :=
  AList.lookup_insert_ne h

lemma get_put (m : PlainMap K V) (k k' : K) (v : V) :
    (m.put k v).get k' = if k' = k then some v else m.get k' := by
  by_cases h : k' = k
  · subst h; simp
  · rw [if_neg h, get_put_of_ne m h]

@[simp] lemma get_remove_self (m : PlainMap K V) (k : K) : (m.remove k).get k = none :=
  AList.lookup_erase k m

lemma get_remove_of_ne (m : PlainMap K V) {k k' : K} (h : k' ≠ k) :
    (m.remove k).get k' = m.get k' :=
  AList.lookup_erase_ne h

lemma get_remove (m : PlainMap K V) (k k' : K) :
    (m.remove k).get k' = if k' = k then none else m.get k' := by
  by_cases h : k' = k
  · subst h; simp
  · rw [if_neg h, get_remove_of_ne m h]

lemma get_eq_none_iff (m : PlainMap K V) (k : K) : m.get k = none ↔ k ∉ m.entries.keys :=
  dlookup_eq_none

@[simp] lemma containsKey_iff (m : PlainMap K V) (k : K) :
    m.containsKey k = true ↔ m.get k ≠ none := by
  simp [containsKey, Option.isSome_iff_ne_none]

@[simp] lemma get_mapValues (f : V → V) (m : PlainMap K V) (k : K) :
    (m.mapValues f).get k = (m.get k).map f :=
  dlookup_map₂ k

/-- A value found after `put` is the new one or was there before. -/
lemma eq_or_get_of_get_put (m : PlainMap K V) {k k' : K} {v w : V}
    (h : (m.put k v).get k' = some w) : k' = k ∧ w = v ∨ m.get k' = some w := by
  rw [get_put] at h
  split_ifs at h with heq
  · exact Or.inl ⟨heq, (Option.some.inj h).symm⟩
  · exact Or.inr h

/-- A value found after `remove` was there before. -/
lemma get_of_get_remove (m : PlainMap K V) {k k' : K} {w : V}
    (h : (m.remove k).get k' = some w) : m.get k' = some w := by
  rw [get_remove] at h
  split_ifs at h
  exact h

/-! ### Entries -/

lemma mem_entries_iff (m : PlainMap K V) (k : K) (v : V) :
    (⟨k, v⟩ : Sigma fun _ : K => V) ∈ m.entries ↔ m.get k = some v :=
  (mem_dlookup_iff m.nodupKeys).symm

lemma get_filterKeys (p : K → Bool) (m : PlainMap K V) (k : K) :
    (m.filterKeys p).get k = if p k then m.get k else none := by
  have hentry : ∀ v, (m.filterKeys p).get k = some v ↔ m.get k = some v ∧ p k = true := by
    intro v
    rw [← mem_entries_iff, ← mem_entries_iff]
    exact mem_filter
  ext v
  rw [hentry]
  split_ifs with h <;> simp [h]

lemma mem_values_iff (m : PlainMap K V) (v : V) : v ∈ m.values ↔ ∃ k, m.get k = some v := by
  constructor
  · intro h
    obtain ⟨⟨k, w⟩, hmem, rfl⟩ := mem_map.1 h
    exact ⟨k, (m.mem_entries_iff k w).1 hmem⟩
  · rintro ⟨k, h⟩
    exact mem_map.2 ⟨⟨k, v⟩, (m.mem_entries_iff k v).2 h, rfl⟩

/-- Removing an absent key changes nothing. -/
lemma remove_of_get_none {m : PlainMap K V} {k : K} (h : m.get k = none) : m.remove k = m := by
  apply AList.ext
  exact kerase_of_notMem_keys ((m.get_eq_none_iff k).1 h)

/-- The entries of a map are the entry of `k` and those that are left without `k`. -/
lemma entries_perm_of_get {m : PlainMap K V} {k : K} {v : V} (h : m.get k = some v) :
    m.entries ~ ⟨k, v⟩ :: (m.remove k).entries := by
  have hk : k ∈ m.entries.keys := by
    by_contra hk
    rw [(m.get_eq_none_iff k).2 hk] at h
    exact absurd h (by simp)
  obtain ⟨w, l₁, l₂, -, hl, hl'⟩ := exists_of_kerase hk
  have hw : m.get k = some w := by
    rw [← mem_entries_iff, hl]
    simp
  obtain rfl : v = w := Option.some.inj (h.symm.trans hw)
  have hrem : (m.remove k).entries = l₁ ++ l₂ := hl'
  rw [hrem, hl]
  exact perm_middle

lemma entries_put (m : PlainMap K V) (k : K) (v : V) :
    (m.put k v).entries = ⟨k, v⟩ :: (m.remove k).entries :=
  AList.entries_insert

lemma put_remove_self (m : PlainMap K V) (k : K) (v : V) : (m.remove k).put k v = m.put k v := by
  apply AList.ext
  rw [entries_put, entries_put, remove_of_get_none (get_remove_self m k)]

omit [DecidableEq K] in
@[simp] lemma values_empty : (∅ : PlainMap K V).values = [] := rfl

lemma values_put (m : PlainMap K V) (k : K) (v : V) :
    (m.put k v).values = v :: (m.remove k).values := by
  simp [values, entries_put]

/-- The values are different when the keys can be read off them. -/
lemma nodup_map_values {m : PlainMap K V} {key : V → K} (h : ∀ k v, m.get k = some v → key v = k) :
    (m.values.map key).Nodup := by
  have hkeys : m.values.map key = m.entries.keys := by
    rw [values, map_map]
    exact map_congr_left fun e hmem => h e.1 e.2 ((m.mem_entries_iff e.1 e.2).1 hmem)
  rw [hkeys]
  exact m.nodupKeys

lemma values_remove_sublist (m : PlainMap K V) (k : K) : (m.remove k).values <+ m.values :=
  (kerase_sublist k m.entries).map _

/-- A `put` adds its value, and may replace another one. -/
lemma values_put_sublist (m : PlainMap K V) (k : K) (v : V) :
    (m.put k v).values <+ v :: m.values := by
  rw [values_put]
  exact (values_remove_sublist m k).cons_cons v

lemma values_perm_of_get {m : PlainMap K V} {k : K} {v : V} (h : m.get k = some v) :
    m.values ~ v :: (m.remove k).values := by
  simpa [values] using (entries_perm_of_get h).map Sigma.snd

lemma length_values_le_put (m : PlainMap K V) (k : K) (v : V) :
    m.values.length ≤ (m.put k v).values.length := by
  rw [values_put, length_cons]
  cases h : m.get k with
  | none =>
      rw [remove_of_get_none h]
      exact Nat.le_succ _
  | some w => exact Nat.le_of_eq (values_perm_of_get h).length_eq

/-- Two maps with the same keys have as many values. -/
lemma length_values_eq {W : Type*} {m : PlainMap K V} {m' : PlainMap K W}
    (h : ∀ k, m.get k = none ↔ m'.get k = none) : m.values.length = m'.values.length := by
  have hkeys : m.entries.keys ~ m'.entries.keys := by
    refine (perm_ext_iff_of_nodup m.nodupKeys m'.nodupKeys).2 fun k => ?_
    have hk := not_congr (h k)
    rwa [get_eq_none_iff, get_eq_none_iff, not_not, not_not] at hk
  have hlength := hkeys.length_eq
  simpa [keys, values] using hlength

lemma mapValues_remove (f : V → V) (m : PlainMap K V) (k : K) :
    (m.remove k).mapValues f = (m.mapValues f).remove k := by
  apply AList.ext
  exact (eraseP_map (p := fun e : Sigma fun _ : K => V => k = e.1)).symm

lemma mapValues_put (f : V → V) (m : PlainMap K V) (k : K) (v : V) :
    (m.put k v).mapValues f = (m.mapValues f).put k (f v) := by
  apply AList.ext
  rw [entries_put, ← mapValues_remove]
  simp only [mapValues, entries_put, map_cons]
  rfl

omit [DecidableEq K] in
lemma mapValues_mapValues (g f : V → V) (m : PlainMap K V) :
    (m.mapValues f).mapValues g = m.mapValues fun v => g (f v) := by
  apply AList.ext
  simp only [mapValues, map_map]
  rfl

omit [DecidableEq K] in
lemma values_mapValues (f : V → V) (m : PlainMap K V) :
    (m.mapValues f).values = m.values.map f := by
  simp only [values, mapValues, map_map]
  rfl

/-- A `put` that replaces a value by one that looks the same. -/
lemma map_values_put {β : Type*} (f : V → β) {m : PlainMap K V} {k : K} {v v' : V}
    (h : m.get k = some v) (heq : f v' = f v) : (m.put k v').values.map f ~ m.values.map f := by
  rw [values_put, map_cons, heq]
  exact ((values_perm_of_get h).map f).symm

/-! ### Counting entries -/

variable (p : K → V → Bool)

omit [DecidableEq K] in
@[simp] lemma count_empty : count p (∅ : PlainMap K V) = 0 := rfl

/-- A count splits into the entry of one key and the rest. -/
lemma count_of_get {m : PlainMap K V} {k : K} {v : V} (h : m.get k = some v) :
    count p m = count p (m.remove k) + if p k v then 1 else 0 := by
  simp only [count]
  rw [(entries_perm_of_get h).countP_eq, countP_cons]

lemma count_put (m : PlainMap K V) (k : K) (v : V) :
    count p (m.put k v) = count p (m.remove k) + if p k v then 1 else 0 := by
  simp only [count]
  rw [entries_put, countP_cons]

omit [DecidableEq K] in
lemma count_mapValues (f : V → V) (m : PlainMap K V) :
    count p (m.mapValues f) = count (fun k v => p k (f v)) m := by
  simp only [count, mapValues]
  rw [countP_map]
  rfl

/-- How many keys satisfy a condition depends on which of these are in use. -/
lemma count_key_congr {W : Type*} {q : K → Bool} {m : PlainMap K V} {m' : PlainMap K W}
    (h : ∀ k, q k = true → (m.get k = none ↔ m'.get k = none)) :
    count (fun k _ => q k) m = count (fun k _ => q k) m' := by
  have hkeys : m.entries.keys.filter q ~ m'.entries.keys.filter q := by
    refine (perm_ext_iff_of_nodup (m.nodupKeys.filter q) (m'.nodupKeys.filter q)).2 fun k => ?_
    rw [mem_filter, mem_filter]
    refine and_congr_left fun hq => ?_
    have hk := not_congr (h k hq)
    rwa [get_eq_none_iff, get_eq_none_iff, not_not, not_not] at hk
  have hlength := hkeys.length_eq
  rw [← countP_eq_length_filter, ← countP_eq_length_filter, keys, keys, countP_map,
    countP_map] at hlength
  exact hlength

/-- One key more is in use. -/
lemma count_key_of_new {q : K → Bool} {m m' : PlainMap K V} {k : K} (hq : q k = true)
    (hold : m.get k = none) (hnew : m'.get k ≠ none)
    (h : ∀ k' ≠ k, q k' = true → (m'.get k' = none ↔ m.get k' = none)) :
    count (fun k _ => q k) m' = count (fun k _ => q k) m + 1 := by
  obtain ⟨v, hv⟩ := Option.ne_none_iff_exists'.1 hnew
  rw [count_of_get _ hv, if_pos hq]
  congr 1
  refine count_key_congr fun k' hq' => ?_
  rw [get_remove]
  split_ifs with heq
  · rw [heq, hold]
  · exact h k' heq hq'

lemma count_pos_iff (m : PlainMap K V) :
    0 < count p m ↔ ∃ k v, m.get k = some v ∧ p k v = true := by
  simp only [count]
  rw [countP_pos_iff]
  constructor
  · rintro ⟨⟨k, v⟩, hmem, hp⟩
    exact ⟨k, v, (m.mem_entries_iff k v).1 hmem, hp⟩
  · rintro ⟨k, v, hget, hp⟩
    exact ⟨⟨k, v⟩, (m.mem_entries_iff k v).2 hget, hp⟩

end PlainMap

end Lib
