/-
Words and hierarchical patterns.

A word over an alphabet is cut at every occurrence of a separator by `List.splitOn` and put
together again by `List.intercalate`.  The first part adds to Mathlib's facts on the two what
a store of joined prefixes needs: joining is injective on separator-free pieces, and appending
a piece to a prefix appends a separator and the piece to the joined word.

The second part is the matching of a list of levels against a pattern that may hold two
special levels: `one` stands for any one level and `many`, when it is the last level of the
pattern, for any number of further levels.
-/
import Mathlib.Data.List.Infix
import Mathlib.Tactic.Tauto

namespace Lib

open List

/-! ### Cutting and joining -/

section Join

variable {α : Type*} [DecidableEq α] {sep : α}

lemma not_mem_of_mem_splitOn {s : List α} : ∀ w ∈ s.splitOn sep, sep ∉ w := by
  induction s with
  | nil => simp [splitOn_nil]
  | cons x s ih =>
      intro w hw
      rw [splitOn_cons_eq_if_modifyHead] at hw
      by_cases hx : x = sep
      · subst hx
        simp only [beq_self_eq_true, if_true, mem_cons] at hw
        rcases hw with rfl | hw
        · simp
        · exact ih w hw
      · simp only [beq_iff_eq, hx, if_false] at hw
        obtain ⟨v, vs, hv⟩ := exists_cons_of_ne_nil (splitOn_ne_nil sep s)
        rw [hv, modifyHead_cons, mem_cons] at hw
        rcases hw with rfl | hw
        · have hsep : sep ∉ v := ih v (by rw [hv]; simp)
          simp [hsep, Ne.symm hx]
        · exact ih w (by rw [hv]; simp [hw])

/-- Joining separator-free pieces is injective. -/
lemma intercalate_injective {ws vs : List (List α)} (hw : ∀ w ∈ ws, sep ∉ w)
    (hv : ∀ v ∈ vs, sep ∉ v) (hws : ws ≠ []) (hvs : vs ≠ [])
    (h : [sep].intercalate ws = [sep].intercalate vs) : ws = vs := by
  rw [← splitOn_intercalate sep hw hws, h, splitOn_intercalate sep hv hvs]

omit [DecidableEq α] in
/-- Appending a piece to a prefix appends the separator and the piece. -/
lemma intercalate_concat {ws : List (List α)} (hws : ws ≠ []) (w : List α) :
    [sep].intercalate (ws ++ [w]) = [sep].intercalate ws ++ sep :: w := by
  induction ws with
  | nil => exact absurd rfl hws
  | cons v vs ih =>
      cases vs with
      | nil => simp
      | cons u us =>
          have := ih (by simp)
          simp only [cons_append, intercalate_cons_cons] at this ⊢
          rw [this]
          simp

omit [DecidableEq α] in
/-- Joining adds no elements but separators. -/
lemma mem_intercalate {c : α} (hc : c ≠ sep) {ws : List (List α)} :
    c ∈ [sep].intercalate ws ↔ ∃ w ∈ ws, c ∈ w := by
  induction ws with
  | nil => simp
  | cons w ws ih =>
      cases ws with
      | nil => simp
      | cons v vs =>
          rw [intercalate_cons_cons, mem_append, mem_append, ih]
          simp [hc]

lemma splitOn_concat_sep (s : List α) : (s ++ [sep]).splitOn sep = s.splitOn sep ++ [[]] := by
  rw [splitOn_append_cons_self, splitOn_nil]

/-- A nonempty word has an empty last piece only if it ends with the separator. -/
lemma exists_of_splitOn_concat_nil {s : List α} {ws : List (List α)} (hs : s ≠ [])
    (h : s.splitOn sep = ws ++ [[]]) : ∃ s', s = s' ++ [sep] ∧ s'.splitOn sep = ws := by
  have hws : ws ≠ [] := by
    rintro rfl
    apply hs
    rw [← @intercalate_splitOn α s _ _ sep, h]
    simp
  have hjoin : s = [sep].intercalate ws ++ [sep] := by
    rw [← intercalate_concat hws, ← h, intercalate_splitOn]
  refine ⟨[sep].intercalate ws, hjoin, ?_⟩
  rw [hjoin, splitOn_concat_sep] at h
  exact append_cancel_right h

end Join

/-! ### Patterns over levels -/

section Pattern

variable {W : Type*} (one many : W)

/-- `Accepts one many ws p`: the levels `ws` are matched by the pattern `p`, in which `one`
matches any one level, a final `many` any number of further levels, and every other level
itself only. -/
def Accepts : List W → List W → Prop
  | ws, [] => ws = []
  | [], f :: fs => f = many ∧ fs = []
  | w :: ws, f :: fs => (f = many ∧ fs = []) ∨ ((f = one ∨ f = w) ∧ Accepts ws fs)

instance decidableAccepts [DecidableEq W] : ∀ ws p : List W, Decidable (Accepts one many ws p)
  | ws, [] => decidable_of_iff (ws = []) (by cases ws <;> simp [Accepts])
  | [], f :: fs => inferInstanceAs (Decidable (f = many ∧ fs = []))
  | _ :: ws, f :: fs =>
      have := decidableAccepts ws fs
      inferInstanceAs (Decidable ((f = many ∧ fs = []) ∨ _))

variable {one many}

@[simp] lemma accepts_nil_right {ws : List W} : Accepts one many ws [] ↔ ws = [] := by
  cases ws <;> simp [Accepts]

@[simp] lemma accepts_nil_left {p : List W} :
    Accepts one many [] p ↔ p = [] ∨ p = [many] := by
  cases p with
  | nil => simp [Accepts]
  | cons f fs => simp [Accepts]

lemma accepts_cons_cons {w f : W} {ws fs : List W} :
    Accepts one many (w :: ws) (f :: fs) ↔
      (f = many ∧ fs = []) ∨ ((f = one ∨ f = w) ∧ Accepts one many ws fs) := by
  rw [Accepts]

/-- A pattern with neither special level accepts itself only. -/
lemma accepts_literal {ws p : List W} (h1 : one ∉ p) (h2 : many ∉ p) :
    Accepts one many ws p ↔ ws = p := by
  induction p generalizing ws with
  | nil => simp
  | cons f fs ih =>
      simp only [mem_cons, not_or] at h1 h2
      cases ws with
      | nil => simp [Ne.symm h2.1]
      | cons w ws =>
          rw [accepts_cons_cons, ih h1.2 h2.2]
          have hm : ¬(f = many ∧ fs = []) := fun h => h2.1 h.1.symm
          have ho : ¬f = one := fun h => h1.1 h.symm
          simp only [hm, ho, false_or, cons.injEq]
          exact ⟨fun h => ⟨h.1.symm, h.2⟩, fun h => ⟨h.1.symm, h.2⟩⟩

/-- Without `many`, a pattern accepts the lists of its own length that agree with it at every
position that does not hold `one`. -/
lemma accepts_iff_of_not_mem {ws p : List W} (h : many ∉ p) :
    Accepts one many ws p ↔
      p.length = ws.length ∧ ∀ i < p.length, p[i]? = some one ∨ p[i]? = ws[i]? := by
  induction p generalizing ws with
  | nil => simp [eq_comm]
  | cons f fs ih =>
      simp only [mem_cons, not_or] at h
      cases ws with
      | nil => simp [Ne.symm h.1]
      | cons w ws =>
          rw [accepts_cons_cons, ih h.2]
          have hm : ¬(f = many ∧ fs = []) := fun hm => h.1 hm.1.symm
          simp only [hm, false_or, length_cons, Nat.add_right_cancel_iff,
            Nat.forall_lt_succ_left, getElem?_cons_zero, getElem?_cons_succ, Option.some.injEq]
          tauto

/-- A final `many` accepts any number of levels after those of the rest of the pattern. -/
lemma accepts_concat_many {ws p : List W} (h : many ∉ p) :
    Accepts one many ws (p ++ [many]) ↔
      p.length ≤ ws.length ∧ ∀ i < p.length, p[i]? = some one ∨ p[i]? = ws[i]? := by
  induction p generalizing ws with
  | nil => cases ws <;> simp [accepts_cons_cons]
  | cons f fs ih =>
      simp only [mem_cons, not_or] at h
      cases ws with
      | nil => simp
      | cons w ws =>
          rw [cons_append, accepts_cons_cons, ih h.2]
          have hm : ¬(f = many ∧ fs ++ [many] = []) := fun hm => h.1 hm.1.symm
          simp only [hm, false_or, length_cons, Nat.succ_le_succ_iff,
            Nat.forall_lt_succ_left, getElem?_cons_zero, getElem?_cons_succ, Option.some.injEq]
          tauto

/-- Levels in front of a pattern accept themselves. -/
lemma Accepts.append_self (us : List W) {ws p : List W} (h : Accepts one many ws p) :
    Accepts one many (us ++ ws) (us ++ p) := by
  induction us with
  | nil => exact h
  | cons u us ih => exact accepts_cons_cons.2 (Or.inr ⟨Or.inr rfl, ih⟩)

/-- An ordinary last level of a pattern is the last level of what the pattern accepts. -/
lemma Accepts.concat {x : W} (h1 : x ≠ one) (h2 : x ≠ many) {ws p : List W}
    (h : Accepts one many ws (p ++ [x])) : ∃ ws', ws = ws' ++ [x] ∧ Accepts one many ws' p := by
  induction p generalizing ws with
  | nil =>
      have hx : ws = [x] := (accepts_literal (by simpa using Ne.symm h1)
        (by simpa using Ne.symm h2)).1 h
      exact ⟨[], by simp [hx]⟩
  | cons f fs ih =>
      cases ws with
      | nil => rcases accepts_nil_left.1 h with h | h <;> simp at h
      | cons w ws =>
          rcases accepts_cons_cons.1 h with ⟨-, h⟩ | ⟨hf, h⟩
          · simp at h
          · obtain ⟨ws', rfl, hacc⟩ := ih h
            exact ⟨w :: ws', rfl, accepts_cons_cons.2 (Or.inr ⟨hf, hacc⟩)⟩

end Pattern

end Lib
