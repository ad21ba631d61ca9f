/-
Tasks that take turns.

Tasks are listed in the order in which they were started, and some pairs of them conflict.
`InTurn` says that no task is under way while an earlier one that it conflicts with is not done;
a task that waits for the earlier ones keeps it.

What the tasks still have to do to a store is then pending in their order (`pending`).  An access
may be done ahead of the pending ones of the tasks before it if those are to other keys: for each
key the store ends up the same (`foldl_pending_set`).
-/
import Mathlib.Data.List.Basic
import Stuart.Lib.Runs

namespace Lib

variable {T A K V : Type*}

/-- Of two tasks in a list with a new one, the earlier is an old one. -/
lemma getElem?_of_concat {l : List T} {new t u : T} {i j : ℕ} (hij : i < j)
    (ht : (l ++ [new])[i]? = some t) (hu : (l ++ [new])[j]? = some u) : l[i]? = some t := by
  have hlt := (List.getElem?_eq_some_iff.1 hu).1
  rw [List.length_append, List.length_singleton] at hlt
  rw [List.getElem?_append_left (by omega)] at ht
  exact ht

/-- A list around one of its places. -/
lemma exists_set_eq {l : List T} {i : ℕ} {t : T} (ht : l[i]? = some t) (t' : T) :
    ∃ l₁ l₂, l = l₁ ++ t :: l₂ ∧ l₁.length = i ∧ l.set i t' = l₁ ++ t' :: l₂ := by
  obtain ⟨hi, rfl⟩ := List.getElem?_eq_some_iff.1 ht
  exact List.exists_of_set hi

/-- A place of a list is replaced by one with the same value. -/
lemma filterMap_set_of_eq {f : T → Option A} {l : List T} {i : ℕ} {t t' : T} (ht : l[i]? = some t)
    (h : f t' = f t) : (l.set i t').filterMap f = l.filterMap f := by
  obtain ⟨l₁, l₂, rfl, -, hset⟩ := exists_set_eq ht t'
  rw [hset, List.filterMap_append, List.filterMap_append, List.filterMap_cons,
    List.filterMap_cons, h]

/-- A place of a list gets a value that it did not have. -/
lemma filterMap_set_perm {f : T → Option A} {l : List T} {i : ℕ} {t t' : T} (ht : l[i]? = some t)
    {a : A} (hold : f t = none) (hnew : f t' = some a) :
    ((l.set i t').filterMap f).Perm (a :: l.filterMap f) := by
  obtain ⟨l₁, l₂, rfl, -, hset⟩ := exists_set_eq ht t'
  rw [hset, List.filterMap_append, List.filterMap_append, List.filterMap_cons_some hnew,
    List.filterMap_cons_none hold]
  exact List.perm_middle

/-! ### Turns -/

section Turns

variable (conflicts : T → T → Prop) (underway done : T → Prop)

/-- The tasks before a task that is under way are done if they conflict with it. -/
def InTurn (l : List T) : Prop :=
  ∀ (i j : ℕ) (t u : T), i < j → l[i]? = some t → l[j]? = some u → conflicts t u → underway u →
    done t

variable {conflicts underway done} {l : List T} {i : ℕ} {t t' : T}

lemma inTurn_nil : InTurn conflicts underway done [] := fun _ _ _ _ _ ht => by simp at ht

/-- A task goes on that is not done and has had its turn. -/
lemma InTurn.set (h : InTurn conflicts underway done l) (ht : l[i]? = some t) (hdone : ¬done t)
    (hturn : ∀ j u, j < i → l[j]? = some u → conflicts u t → done u)
    (hleft : ∀ u, conflicts t u ↔ conflicts t' u) (hright : ∀ u, conflicts u t ↔ conflicts u t') :
    InTurn conflicts underway done (l.set i t') := by
  intro j k u v hjk hu hv hconf hway
  rw [getElem?_set_of_some ht] at hu hv
  split_ifs at hu hv with hji hki hki
  · omega
  · -- a later task that conflicts is not under way yet
    obtain rfl := Option.some.inj hu
    subst hji
    exact absurd (h j k t v hjk ht hv ((hleft v).2 hconf) hway) hdone
  · obtain rfl := Option.some.inj hv
    subst hki
    exact hturn j u hjk hu ((hright u).2 hconf)
  · exact h j k u v hjk hu hv hconf hway

/-- A new task waits. -/
lemma InTurn.concat (h : InTurn conflicts underway done l) (ht : ¬underway t) :
    InTurn conflicts underway done (l ++ [t]) := by
  intro i j u v hij hu hv hconf hway
  have hold := getElem?_of_concat hij hu hv
  rcases getElem?_concat_eq_some.1 hv with hv | ⟨-, rfl⟩
  · exact h i j u v hij hold hv hconf hway
  · exact absurd hway ht

end Turns

/-! ### Pending accesses -/

section Pending

variable (accesses : T → List A)

/-- What the tasks still have to do, in their order. -/
def pending (l : List T) : List A := l.flatMap accesses

variable {accesses} {l : List T} {i : ℕ} {t t' : T}

lemma pending_set_of_eq (ht : l[i]? = some t) (heq : accesses t' = accesses t) :
    pending accesses (l.set i t') = pending accesses l := by
  obtain ⟨l₁, l₂, hl, -, hset⟩ := exists_set_eq ht t'
  rw [hset]
  conv_rhs => rw [hl]
  simp only [pending, List.flatMap_append, List.flatMap_cons, heq]

lemma pending_concat (t : T) : pending accesses (l ++ [t]) = pending accesses l ++ accesses t := by
  simp [pending]

lemma pending_eq_nil (h : ∀ t ∈ l, accesses t = []) : pending accesses l = [] :=
  List.flatMap_eq_nil_iff.2 h

lemma foldl_of_forall {f : V → A → V} {as : List A} (h : ∀ a ∈ as, ∀ x, f x a = x) (x : V) :
    as.foldl f x = x := by
  induction as with
  | nil => rfl
  | cons a as ih =>
      rw [List.foldl_cons, h a List.mem_cons_self]
      exact ih fun b hb => h b (List.mem_cons_of_mem a hb)

variable {key : A → K} {apply : K → V → A → V}

/-- An access is done ahead of those of the tasks before it, which are to other keys. -/
theorem foldl_pending_set (hlocal : ∀ k a x, key a ≠ k → apply k x a = x) (ht : l[i]? = some t)
    {a : A} (htake : accesses t = a :: accesses t')
    (hother : ∀ j u, j < i → l[j]? = some u → ∀ b ∈ accesses u, key b ≠ key a) (k : K) (x : V) :
    (pending accesses (l.set i t')).foldl (apply k) (apply k x a) =
      (pending accesses l).foldl (apply k) x := by
  obtain ⟨l₁, l₂, hl, hlength, hset⟩ := exists_set_eq ht t'
  have hbefore : ∀ b ∈ l₁.flatMap accesses, key b ≠ key a := by
    intro b hb
    obtain ⟨u, hu, hb⟩ := List.mem_flatMap.1 hb
    obtain ⟨j, hj⟩ := List.mem_iff_getElem?.1 hu
    have hlt := (List.getElem?_eq_some_iff.1 hj).1
    refine hother j u (by omega) ?_ b hb
    rw [hl, List.getElem?_append_left hlt]
    exact hj
  have hlist : pending accesses l = l₁.flatMap accesses ++
      (a :: accesses t' ++ l₂.flatMap accesses) := by
    conv_lhs => rw [hl]
    simp only [pending, List.flatMap_append, List.flatMap_cons, htake]
  rw [hset, hlist]
  simp only [pending, List.flatMap_append, List.flatMap_cons, List.foldl_append, List.foldl_cons]
  by_cases hk : key a = k
  · -- the accesses before it leave the key alone
    have hskip : ∀ y, (l₁.flatMap accesses).foldl (apply k) y = y := fun y =>
      foldl_of_forall (fun b hb z => hlocal k b z (hk ▸ hbefore b hb)) y
    rw [hskip, hskip]
  · rw [hlocal k a _ hk, hlocal k a _ hk]

end Pending

end Lib
