/-
Calls that run one access at a time.

A pool is a shared state with the calls that were begun, each given by what it does next.  A move
begins a call or lets one of the calls take its next step, so a list of moves is one way to
interleave any number of calls.  A flag that a call takes before a stretch of its steps and gives
back after it keeps that stretch for one call at a time (`Exclusive`), and what holds of the calls
is then kept by a step that keeps it for the call itself and, outside the flag, for the others
(`forall_set`).
-/
import Stuart.Lib.Runs
import Mathlib.Data.List.Perm.Basic

namespace Lib

structure Pool (S T : Type*) where
  shared : S
  tasks : List T

inductive Move (C : Type*) where
  | call (c : C)
  | run (index : ℕ)

/-- The call that a move begins. -/
def Move.call? {C : Type*} : Move C → Option C
  | .call c => some c
  | .run _ => none

namespace Pool

variable {S T C : Type*}

section Step

variable (start : C → S → S × T) (exec : S → T → S × T)

def step (p : Pool S T) : Move C → Option (Pool S T)
  | .call c => some ⟨(start c p.shared).1, p.tasks ++ [(start c p.shared).2]⟩
  | .run index => p.tasks[index]?.map fun t =>
      ⟨(exec p.shared t).1, p.tasks.set index (exec p.shared t).2⟩

variable {start exec}

lemma step_run {p p' : Pool S T} {index : ℕ} (h : step start exec p (.run index) = some p') :
    ∃ t, p.tasks[index]? = some t ∧
      p' = ⟨(exec p.shared t).1, p.tasks.set index (exec p.shared t).2⟩ := by
  obtain ⟨t, ht, rfl⟩ := Option.map_eq_some_iff.1 h
  exact ⟨t, ht, rfl⟩

end Step

/-! ### One call on its own -/

/-- From one place of a call to another one, by steps of this call only. -/
def Leads (exec : S → T → S × T) : S × T → S × T → Prop :=
  Relation.ReflTransGen fun p q => exec p.1 p.2 = q

section Leads

variable {start : C → S → S × T} {exec : S → T → S × T} {p q : S × T}

lemma Leads.refl (p : S × T) : Leads exec p p := Relation.ReflTransGen.refl

lemma Leads.trans {r : S × T} (h : Leads exec p q) (h' : Leads exec q r) : Leads exec p r :=
  Relation.ReflTransGen.trans h h'

lemma Leads.head {s : S} {t : T} (h : Leads exec (exec s t) q) : Leads exec (s, t) q :=
  Relation.ReflTransGen.head rfl h

/-- The last call of a pool runs while the others wait. -/
lemma Leads.exists_run (h : Leads exec p q) (l : List T) :
    ∃ n, run (step start exec) ⟨p.1, l ++ [p.2]⟩ (List.replicate n (.run l.length)) =
      some ⟨q.1, l ++ [q.2]⟩ := by
  induction h using Relation.ReflTransGen.head_induction_on with
  | refl => exact ⟨0, rfl⟩
  | @head p p' hstep _ ih =>
      subst hstep
      obtain ⟨n, hn⟩ := ih
      refine ⟨n + 1, ?_⟩
      rw [List.replicate_succ, run_cons]
      have hget : (l ++ [p.2])[l.length]? = some p.2 := List.getElem?_concat_length
      have hset : (l ++ [p.2]).set l.length (exec p.1 p.2).2 = l ++ [(exec p.1 p.2).2] := by
        rw [List.set_append_right _ _ (Nat.le_refl _), Nat.sub_self, List.set_cons_zero]
      rw [step]
      dsimp only
      rw [hget, Option.map_some, Option.bind_some, hset]
      exact hn

end Leads

/-! ### Counting calls -/

lemma countP_set_of_some {l : List T} {i : ℕ} {t : T} (h : l[i]? = some t) (p : T → Bool) (t' : T) :
    (l.set i t').countP p + (p t).toNat = l.countP p + (p t').toNat := by
  obtain ⟨hi, rfl⟩ := List.getElem?_eq_some_iff.1 h
  have hpos : (p l[i]).toNat ≤ l.countP p := by
    cases hp : p l[i] with
    | false => exact Nat.zero_le _
    | true => exact List.countP_pos_iff.2 ⟨_, List.getElem_mem hi, hp⟩
  have hite : ∀ b : Bool, (if b = true then 1 else 0) = b.toNat := by decide
  rw [List.countP_set hi, hite, hite]
  omega

/-- Two different calls count twice. -/
lemma two_le_countP {l : List T} {i j : ℕ} {t u : T} (hi : l[i]? = some t) (hj : l[j]? = some u)
    (hne : i ≠ j) {p : T → Bool} (ht : p t = true) (hu : p u = true) : 2 ≤ l.countP p := by
  obtain ⟨hlt, rfl⟩ := List.getElem?_eq_some_iff.1 hi
  have hperm := List.getElem_cons_eraseIdx_perm hlt
  have hmem : u ∈ l.eraseIdx i := List.mem_eraseIdx_iff_getElem?.2 ⟨j, fun h => hne h.symm, hj⟩
  have hpos := List.countP_pos_iff.2 ⟨u, hmem, hu⟩
  rw [← hperm.countP_eq, List.countP_cons_of_pos ht]
  omega

/-! ### A flag -/

section Lock

variable (locked : S → Bool) (inside : T → Bool)

/-- At most one call is inside, and the flag tells whether there is one. -/
def Exclusive (p : Pool S T) : Prop := p.tasks.countP inside = (locked p.shared).toNat

/-- What a step does to the flag: nothing, or the call takes it and is inside, or the call was
inside and gives it back. -/
def LockStep (s : S) (t : T) (r : S × T) : Prop :=
  locked r.1 = locked s ∧ inside r.2 = inside t ∨
  (locked s = false ∧ locked r.1 = true ∧ inside t = false ∧ inside r.2 = true) ∨
  locked r.1 = false ∧ inside t = true ∧ inside r.2 = false

variable {locked inside} {p : Pool S T} {i j : ℕ} {t u : T}

lemma Exclusive.le_one (h : p.Exclusive locked inside) : p.tasks.countP inside ≤ 1 := by
  simp only [Exclusive] at h
  rw [h]
  exact Bool.toNat_le _

/-- A call that is inside is so alone. -/
lemma Exclusive.other (h : p.Exclusive locked inside) (hi : p.tasks[i]? = some t)
    (hj : p.tasks[j]? = some u) (hne : i ≠ j) (ht : inside t = true) : inside u = false := by
  by_contra hu
  have htwo := two_le_countP hi hj hne ht (by simpa using hu)
  have hone := h.le_one
  omega

lemma Exclusive.set (h : p.Exclusive locked inside) (hi : p.tasks[i]? = some t) {r : S × T}
    (hstep : LockStep locked inside p.shared t r) :
    Exclusive locked inside ⟨r.1, p.tasks.set i r.2⟩ := by
  have hcount := countP_set_of_some hi inside r.2
  have hone := h.le_one
  rw [Exclusive] at h ⊢
  dsimp only
  rcases hstep with ⟨hlocked, hinside⟩ | ⟨hfree, hlocked, hout, hin⟩ | ⟨hfree, hin, hout⟩
  · rw [hinside] at hcount
    rw [hlocked, ← h]
    omega
  · rw [hfree] at h
    rw [hout, hin] at hcount
    rw [hlocked]
    simp only [Bool.toNat_true, Bool.toNat_false] at h hcount ⊢
    omega
  · rw [hout, hin] at hcount
    rw [hfree]
    simp only [Bool.toNat_true, Bool.toNat_false] at hcount ⊢
    omega

lemma Exclusive.append (h : p.Exclusive locked inside) {r : S × T}
    (hlocked : locked r.1 = locked p.shared) (hout : inside r.2 = false) :
    Exclusive locked inside ⟨r.1, p.tasks ++ [r.2]⟩ := by
  rw [Exclusive] at h ⊢
  dsimp only
  rw [hlocked, ← h, List.countP_append, List.countP_singleton, hout]
  rfl

/-- What holds of every call is kept by a step that keeps it for the call itself and for every
other call, one that is inside apart if the call is inside. -/
lemma Exclusive.forall_set (h : p.Exclusive locked inside) (hi : p.tasks[i]? = some t) {t' : T}
    {A A' : T → Prop} (hall : ∀ u ∈ p.tasks, A u) (hown : A' t')
    (hother : ∀ u, A u → (inside t = true → inside u = false) → A' u) :
    ∀ u ∈ p.tasks.set i t', A' u := by
  intro u hu
  obtain ⟨j, hj⟩ := List.mem_iff_getElem?.1 hu
  rw [getElem?_set_of_some hi] at hj
  split_ifs at hj with hji
  · obtain rfl := Option.some.inj hj
    exact hown
  · exact hother u (hall u (List.mem_of_getElem? hj)) fun ht => h.other hi hj (Ne.symm hji) ht

end Lock

end Pool

end Lib
