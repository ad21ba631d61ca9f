/-
A state that has parts, and actions that work on one part each.

An action reads and changes one part only: that of its key.  What a run does to a part is then what
the actions of that part do alone, whatever stands between them (`view_foldl`).
-/
import Mathlib.Data.List.Basic

namespace Lib

variable {S A K V : Type*}

/-- Each action works on the part of its key, in the states that satisfy `I`. -/
structure Parts (I : S → Prop) (step : S → A → S) (key : A → K) (view : S → K → V) : Prop where
  inv : ∀ s a, I s → I (step s a)
  frame : ∀ s a k, I s → key a ≠ k → view (step s a) k = view s k
  reads : ∀ s s' a, I s → I s' → view s (key a) = view s' (key a) →
    view (step s a) (key a) = view (step s' a) (key a)

variable {I : S → Prop} {step : S → A → S} {key : A → K} {view : S → K → V} {s s' : S}

variable [DecidableEq K]

/-- One of two runs does only the actions of a part. -/
lemma Parts.view_foldl_of_eq (h : Parts I step key view) (hs : I s) (hs' : I s') {k : K}
    (heq : view s k = view s' k) (as : List A) :
    view (as.foldl step s) k = view ((as.filter fun a => key a = k).foldl step s') k := by
  induction as generalizing s s' with
  | nil => exact heq
  | cons a as ih =>
      rw [List.foldl_cons, List.filter_cons]
      by_cases hk : key a = k
      · rw [if_pos (by simpa using hk), List.foldl_cons]
        subst hk
        exact ih (h.inv s a hs) (h.inv s' a hs') (h.reads s s' a hs hs' heq)
      · rw [if_neg (by simpa using hk)]
        exact ih (h.inv s a hs) hs' ((h.frame s a k hs hk).trans heq)

/-- What a run does to a part is what the actions of the part do. -/
lemma Parts.view_foldl (h : Parts I step key view) (hs : I s) (as : List A) (k : K) :
    view (as.foldl step s) k = view ((as.filter fun a => key a = k).foldl step s) k :=
  h.view_foldl_of_eq hs hs rfl as

end Lib
