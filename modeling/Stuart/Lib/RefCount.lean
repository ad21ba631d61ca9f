/-
Reference counts kept in a plain map.

A key with a positive number of references has an entry that carries this number, a key
without references has none.  `acquire` and `release` change the number of one key by one;
the lemmas lift this to the whole list of keys that one owner holds.
-/
import Stuart.Lib.PlainMap
import Mathlib.Data.List.Nodup

namespace Lib
namespace RefCount

open List

variable {K V : Type*} [DecidableEq K]

/-- `m` holds for every key exactly the entry of its number of references. -/
def Counts (mk : K → ℕ → V) (m : PlainMap K V) (refs : K → ℕ) : Prop :=
  ∀ k, m.get k = if refs k = 0 then none else some (mk k (refs k))

/-- Take one more reference to `k`: a key without an entry gets `fresh`, any other entry is
changed by `inc`. -/
def acquire (fresh : V) (inc : V → V) (m : PlainMap K V) (k : K) : PlainMap K V :=
  match m.get k with
  | none => m.put k fresh
  | some v => m.put k (inc v)

/-- Give one reference to `k` back: an entry that counts more than one is changed by `dec`, the
last reference takes the entry with it. -/
def release (cnt : V → ℕ) (dec : V → V) (m : PlainMap K V) (k : K) : PlainMap K V :=
  match m.get k with
  | none => m
  | some v => if 1 < cnt v then m.put k (dec v) else m.remove k

variable {mk : K → ℕ → V} {m : PlainMap K V} {refs : K → ℕ}

lemma counts_empty : Counts mk (∅ : PlainMap K V) fun _ => 0 := by
  intro k
  simp

lemma Counts.congr {refs' : K → ℕ} (h : Counts mk m refs) (heq : ∀ k, refs k = refs' k) :
    Counts mk m refs' := by
  intro k
  rw [← heq k]
  exact h k

lemma Counts.acquire {k : K} {fresh : V} {inc : V → V} (h : Counts mk m refs)
    (hfresh : fresh = mk k 1) (hinc : ∀ n, inc (mk k n) = mk k (n + 1)) :
    Counts mk (acquire fresh inc m k) fun k' => refs k' + if k' = k then 1 else 0 := by
  intro k'
  have hk := h k
  by_cases h0 : refs k = 0
  · rw [if_pos h0] at hk
    simp only [RefCount.acquire, hk, PlainMap.get_put]
    by_cases hkk : k' = k
    · subst hkk; simp [h0, hfresh]
    · simp [hkk, h k']
  · rw [if_neg h0] at hk
    simp only [RefCount.acquire, hk, PlainMap.get_put]
    by_cases hkk : k' = k
    · subst hkk; simp [hinc]
    · simp [hkk, h k']

lemma Counts.release {k : K} {cnt : V → ℕ} {dec : V → V} (h : Counts mk m refs)
    (hcnt : ∀ n, cnt (mk k n) = n) (hdec : ∀ n, dec (mk k n) = mk k (n - 1)) :
    Counts mk (release cnt dec m k) fun k' => refs k' - if k' = k then 1 else 0 := by
  intro k'
  have hk := h k
  by_cases h0 : refs k = 0
  · rw [if_pos h0] at hk
    simp only [RefCount.release, hk]
    by_cases hkk : k' = k
    · subst hkk; simp [h0, hk]
    · simp [hkk, h k']
  · rw [if_neg h0] at hk
    simp only [RefCount.release, hk, hcnt]
    by_cases h1 : 1 < refs k
    · rw [if_pos h1, PlainMap.get_put]
      by_cases hkk : k' = k
      · subst hkk
        rw [if_pos rfl, if_pos rfl, if_neg (by omega), hdec]
      · simp [hkk, h k']
    · rw [if_neg h1, PlainMap.get_remove]
      by_cases hkk : k' = k
      · subst hkk
        rw [if_pos rfl, if_pos rfl, if_pos (by omega)]
      · simp [hkk, h k']

section Fold

variable {f : PlainMap K V → K → PlainMap K V} {ks : List K}

/-- A change of one count, made for every key of an owner. -/
lemma Counts.foldl (g : ℕ → ℕ → ℕ) (hg : ∀ n, g n 0 = n)
    (hf : ∀ (m : PlainMap K V) (refs : K → ℕ) (k : K), Counts mk m refs →
      Counts mk (f m k) fun k' => g (refs k') (if k' = k then 1 else 0))
    (hks : ks.Nodup) (h : Counts mk m refs) :
    Counts mk (ks.foldl f m) fun k' => g (refs k') (if k' ∈ ks then 1 else 0) := by
  induction ks generalizing m refs with
  | nil => exact h.congr (by simp [hg])
  | cons k ks ih =>
      rw [nodup_cons] at hks
      refine (ih hks.2 (hf m refs k h)).congr fun k' => ?_
      by_cases hkk : k' = k
      · subst hkk; simp [hks.1, hg]
      · simp [hkk, hg]

/-- One owner takes all its references. -/
lemma Counts.acquire_all
    (hf : ∀ (m : PlainMap K V) (refs : K → ℕ) (k : K), Counts mk m refs →
      Counts mk (f m k) fun k' => refs k' + if k' = k then 1 else 0)
    (hks : ks.Nodup) (h : Counts mk m refs) :
    Counts mk (ks.foldl f m) fun k' => refs k' + if k' ∈ ks then 1 else 0 :=
  Counts.foldl (· + ·) Nat.add_zero hf hks h

/-- One owner gives all its references back. -/
lemma Counts.release_all
    (hf : ∀ (m : PlainMap K V) (refs : K → ℕ) (k : K), Counts mk m refs →
      Counts mk (f m k) fun k' => refs k' - if k' = k then 1 else 0)
    (hks : ks.Nodup) (h : Counts mk m refs) :
    Counts mk (ks.foldl f m) fun k' => refs k' - if k' ∈ ks then 1 else 0 :=
  Counts.foldl (· - ·) Nat.sub_zero hf hks h

end Fold

end RefCount
end Lib
