/-
Systems that come to rest.

Some of the actions are the work of a system: what it still has to do when nothing new comes from
outside.  If each of these makes a measure smaller, the work ends, in whatever order it is done:
the measure of a state bounds how long it can go on, and there is a state in which no work is left.
-/
import Stuart.Lib.Runs

namespace Lib

variable {S A : Type*}

/-- No action of the work is possible. -/
def AtRest (step : S → A → Option S) (Work : A → Prop) (s : S) : Prop :=
  ∀ a, Work a → step s a = none

/-- The work keeps `I`, and makes the measure smaller. -/
def Decreases (step : S → A → Option S) (Work : A → Prop) (I : S → Prop) (measure : S → ℕ) : Prop :=
  ∀ s a s', I s → Work a → step s a = some s' → I s' ∧ measure s' < measure s

variable {step : S → A → Option S} {Work : A → Prop} {I : S → Prop} {measure : S → ℕ} {s t : S}

/-- Every action of the work is paid for by the measure. -/
theorem Decreases.length_run_le (h : Decreases step Work I measure) (hs : I s) {as : List A}
    (hwork : ∀ a ∈ as, Work a) (hrun : run step s as = some t) :
    as.length + measure t ≤ measure s := by
  induction as generalizing s with
  | nil =>
      obtain rfl := Option.some.inj hrun
      exact Nat.le_of_eq (Nat.zero_add _)
  | cons a as ih =>
      rw [run_cons, Option.bind_eq_some_iff] at hrun
      obtain ⟨u, hu, hrun⟩ := hrun
      obtain ⟨hinv, hlt⟩ := h s a u hs (hwork a List.mem_cons_self) hu
      have hrest := ih hinv (fun b hb => hwork b (List.mem_cons_of_mem a hb)) hrun
      rw [List.length_cons]
      omega

/-- Done for long enough, the work leads to a state at rest. -/
theorem Decreases.exists_atRest (h : Decreases step Work I measure) (hs : I s) :
    ∃ as t, (∀ a ∈ as, Work a) ∧ run step s as = some t ∧ AtRest step Work t := by
  induction hn : measure s using Nat.strongRecOn generalizing s with
  | ind n ih =>
      by_cases hrest : AtRest step Work s
      · exact ⟨[], s, by simp, rfl, hrest⟩
      · simp only [AtRest, not_forall] at hrest
        obtain ⟨a, hwork, hne⟩ := hrest
        obtain ⟨u, hu⟩ := Option.ne_none_iff_exists'.1 hne
        obtain ⟨hinv, hlt⟩ := h s a u hs hwork hu
        obtain ⟨as, t, hall, hrun, hat⟩ := ih (measure u) (hn ▸ hlt) hinv rfl
        refine ⟨a :: as, t, List.forall_mem_cons.2 ⟨hwork, hall⟩, ?_, hat⟩
        rw [run_cons, hu]
        exact hrun

end Lib
