/-
What a history of operations and their results says about the state.

An observer sees which operations are performed and what their results are, and keeps a record of
its own.  If each step keeps record and state related, they are related after every run, and what
the relation says about the result of one step holds of every event of the history, with the record
made of the events before it (`recorded_run`).
-/
import Mathlib.Data.List.Induction
import Stuart.Lib.Runs

namespace Lib

variable {S T A R : Type*}

/-- The operations of a run with their results. -/
def history (perform : S → A → R × S) : S → List A → List (A × R)
  | _, [] => []
  | s, a :: as => (a, (perform s a).1) :: history perform (perform s a).2 as

/-- The state after a run. -/
def after (perform : S → A → R × S) (s : S) (as : List A) : S :=
  as.foldl (fun s a => (perform s a).2) s

variable {perform : S → A → R × S}

lemma history_concat (s : S) (as : List A) (a : A) :
    history perform s (as ++ [a]) =
      history perform s as ++ [(a, (perform (after perform s as) a).1)] := by
  induction as generalizing s with
  | nil => rfl
  | cons b as ih => exact congrArg _ (ih _)

lemma after_concat (s : S) (as : List A) (a : A) :
    after perform s (as ++ [a]) = (perform (after perform s as) a).2 := by
  simp only [after, List.foldl_append, List.foldl_cons, List.foldl_nil]

lemma after_append (s : S) (as bs : List A) :
    after perform s (as ++ bs) = after perform (after perform s as) bs :=
  List.foldl_append

/-- The rule for an invariant. -/
lemma invariant_after {I : S → Prop} {s : S} {as : List A}
    (hstep : ∀ s a, a ∈ as → I s → I (perform s a).2) (h : I s) : I (after perform s as) := by
  induction as generalizing s with
  | nil => exact h
  | cons a as ih =>
      exact ih (fun s b hb => hstep s b (List.mem_cons_of_mem a hb))
        (hstep s a List.mem_cons_self h)

/-- The rule for a record that is kept along a run. -/
theorem recorded_run (record : T → A × R → T) (Rel : S → T → Prop) (Q : T → A × R → Prop)
    (hrel : ∀ s t a, Rel s t → Rel (perform s a).2 (record t (a, (perform s a).1)))
    (hq : ∀ s t a, Rel s t → Q t (a, (perform s a).1)) {s : S} {t : T} (h : Rel s t)
    (as : List A) :
    Rel (after perform s as) ((history perform s as).foldl record t) ∧
      Allowed (fun before event => Q (before.foldl record t) event) (history perform s as) := by
  induction as using List.reverseRecOn with
  | nil => exact ⟨h, allowed_nil⟩
  | append_singleton as a ih =>
      obtain ⟨hend, hall⟩ := ih
      rw [history_concat, after_concat, List.foldl_append]
      exact ⟨hrel _ _ a hend, allowed_concat.2 ⟨hall, hq _ _ a hend⟩⟩

end Lib
