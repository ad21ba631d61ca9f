/-
A finite map that is written over by a list of rows.

The rows carry their keys, and the last one for a key counts.  If all keys are in use, the values
stay the same up to order iff, under the keys that are written, the new values are the old ones up
to order (`map_values_putAll_iff`).
-/
import Stuart.Lib.PlainMap

namespace Lib

open List

namespace PlainMap

variable {K V β : Type*} [DecidableEq K] (key : V → K)

/-- Put the rows one after the other. -/
def putAll (m : PlainMap K V) (rows : List V) : PlainMap K V :=
  rows.foldl (fun m row => m.put (key row) row) m

/-- The last row for a key. -/
def lastFor (rows : List V) (k : K) : Option V := rows.reverse.find? fun row => key row = k

/-- The keys in use that some row is for. -/
def written (m : PlainMap K V) (rows : List V) : List K :=
  m.entries.keys.filter fun k => rows.any fun row => key row = k

lemma lastFor_cons (row : V) (rows : List V) (k : K) :
    lastFor key (row :: rows) k =
      (lastFor key rows k).or (if key row = k then some row else none) := by
  rw [lastFor, reverse_cons, find?_append, find?_singleton, lastFor]
  by_cases h : key row = k
  · simp [h]
  · simp [h]

lemma get_putAll (m : PlainMap K V) (rows : List V) (k : K) :
    (m.putAll key rows).get k = (lastFor key rows k).or (m.get k) := by
  induction rows generalizing m with
  | nil => rfl
  | cons row rows ih =>
      have hrest := ih (m.put (key row) row)
      rw [lastFor_cons, Option.or_assoc]
      refine hrest.trans (congrArg _ ?_)
      rw [get_put]
      by_cases h : key row = k
      · rw [if_pos h.symm, if_pos h, Option.some_or]
      · rw [if_neg (Ne.symm h), if_neg h, Option.none_or]

lemma lastFor_eq_none {rows : List V} {k : K} :
    lastFor key rows k = none ↔ ∀ row ∈ rows, key row ≠ k := by
  simp [lastFor]

/-- The values, in the order of their keys. -/
lemma map_values_eq (m : PlainMap K V) (f : V → β) :
    m.values.map f = m.entries.keys.filterMap fun k => (m.get k).map f := by
  rw [values, map_map, keys, filterMap_map, ← filterMap_eq_map]
  refine filterMap_congr fun entry hmem => ?_
  have hget : m.get entry.1 = some entry.2 := (mem_entries_iff m entry.1 entry.2).1 hmem
  simp [hget]

/-- A row whose key is not in use adds a key. -/
lemma keys_putAll_perm {m : PlainMap K V} {rows : List V} :
    (m.putAll key rows).entries.keys ~ m.entries.keys ↔
      ∀ row ∈ rows, m.get (key row) ≠ none := by
  rw [perm_ext_iff_of_nodup (m.putAll key rows).nodupKeys m.nodupKeys]
  have hkeys : ∀ k, k ∈ (m.putAll key rows).entries.keys ↔
      (∃ row ∈ rows, key row = k) ∨ k ∈ m.entries.keys := by
    intro k
    have hput := not_congr (get_eq_none_iff (m.putAll key rows) k)
    have hget := not_congr (get_eq_none_iff m k)
    rw [not_not] at hput hget
    rw [← hput, ← hget, get_putAll, Option.or_eq_none_iff, lastFor_eq_none, not_and_or]
    simp
  constructor
  · intro h row hmem
    have hin := (h (key row)).1 ((hkeys (key row)).2 (Or.inl ⟨row, hmem, rfl⟩))
    exact fun hnone => (get_eq_none_iff m (key row)).1 hnone hin
  · intro h k
    rw [hkeys]
    constructor
    · rintro (⟨row, hmem, rfl⟩ | hin)
      · by_contra hout
        exact h row hmem ((get_eq_none_iff m (key row)).2 hout)
      · exact hin
    · exact Or.inr

/-- The other keys keep their values, so only the written ones matter. -/
lemma map_values_putAll_iff {m : PlainMap K V} {rows : List V}
    (h : ∀ row ∈ rows, m.get (key row) ≠ none) (f : V → β) :
    (m.putAll key rows).values.map f ~ m.values.map f ↔
      (m.written key rows).filterMap (fun k => (lastFor key rows k).map f) ~
        (m.written key rows).filterMap fun k => (m.get k).map f := by
  set p : K → Bool := fun k => rows.any fun row => key row = k with hp
  have hsplit := filter_append_perm p m.entries.keys
  have hnew : (m.putAll key rows).values.map f ~
      (m.written key rows).filterMap (fun k => (lastFor key rows k).map f) ++
        (m.entries.keys.filter fun k => !p k).filterMap fun k => (m.get k).map f := by
    rw [map_values_eq]
    refine (((keys_putAll_perm key).2 h).trans hsplit.symm).filterMap _ |>.trans ?_
    rw [filterMap_append]
    refine Perm.of_eq
      (congrArg₂ _ (filterMap_congr fun k hk => ?_) (filterMap_congr fun k hk => ?_))
    · -- a key that is written
      have hpk : p k = true := (mem_filter.1 hk).2
      rw [get_putAll]
      cases hlast : lastFor key rows k with
      | none =>
          have hnone := (lastFor_eq_none key).1 hlast
          simp only [hp, any_eq_true, decide_eq_true_eq] at hpk
          obtain ⟨row, hmem, heq⟩ := hpk
          exact absurd heq (hnone row hmem)
      | some row => rfl
    · have hpk : p k = false := by simpa using (mem_filter.1 hk).2
      have hlast : lastFor key rows k = none := by
        rw [lastFor_eq_none]
        intro row hmem heq
        simp only [hp, any_eq_false, decide_eq_true_eq] at hpk
        exact hpk row hmem heq
      rw [get_putAll, hlast, Option.none_or]
  have hold : m.values.map f ~
      (m.written key rows).filterMap (fun k => (m.get k).map f) ++
        (m.entries.keys.filter fun k => !p k).filterMap fun k => (m.get k).map f := by
    rw [map_values_eq, ← filterMap_append]
    exact hsplit.symm.filterMap _
  constructor
  · intro hperm
    exact (perm_append_right_iff _).1 (hnew.symm.trans (hperm.trans hold))
  · intro hperm
    exact hnew.trans ((hperm.append_right _).trans hold.symm)

end PlainMap

end Lib
