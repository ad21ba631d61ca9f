/-
Simulation of one transition system by the operations of another.

An action of the first system stands for a list of operations of the second one, which may depend
on the state.  If each step keeps a relation between the states of the two, a run of the first
system is related to the run of the operations that its actions stand for.  What is assumed of the
steps of the first system is a condition on the state and the action, as in `AllSteps`.
-/
import Stuart.Lib.Runs

namespace Lib

variable {S A T B : Type*}

/-- The operations that the actions of a run stand for. -/
def images (step : S → A → Option S) (f : S → A → List B) : S → List A → List B
  | _, [] => []
  | s, a :: as =>
      f s a ++ match step s a with
        | none => []
        | some s' => images step f s' as

variable {step : S → A → Option S} {f : S → A → List B} {P : S → A → Prop}

lemma images_cons {s s' : S} {a : A} (hstep : step s a = some s') (as : List A) :
    images step f s (a :: as) = f s a ++ images step f s' as := by
  simp only [images, hstep]

/-- The rule for a simulation. -/
theorem simulation_run (perform : T → B → T) (Rel : S → T → Prop)
    (hrel : ∀ s a s' t, Rel s t → P s a → step s a = some s' → Rel s' ((f s a).foldl perform t))
    {s s' : S} {t : T} {as : List A} (h : Rel s t) (hall : AllSteps step P s as)
    (hrun : run step s as = some s') :
    Rel s' ((images step f s as).foldl perform t) := by
  induction as generalizing s t with
  | nil =>
      obtain rfl := Option.some.inj hrun
      exact h
  | cons a as ih =>
      rw [run_cons, Option.bind_eq_some_iff] at hrun
      obtain ⟨u, hu, hrun⟩ := hrun
      rw [images_cons hu, List.foldl_append]
      exact ih (hrel s a u t h hall.1 hu) (hall.2 u hu) hrun

end Lib
