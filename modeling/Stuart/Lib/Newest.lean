/-
A cell that events write and clear.

What an event does may depend on the events before it.  The cell holds a value after a history iff
the value was written by some event, and no later event has written or cleared the cell
(`eq_some_iff_newest`).
-/
import Mathlib.Data.List.Induction

namespace Lib

variable {α β : Type*} {write : List α → α → β → Prop} {clear : List α → α → Prop}

/-- The value was written by some event, and the cell was not touched afterwards. -/
def Newest (write : List α → α → β → Prop) (clear : List α → α → Prop) (events : List α)
    (value : β) : Prop :=
  ∃ before event after, events = before ++ event :: after ∧ write before event value ∧
    ∀ before' other after', after = before' ++ other :: after' →
      ¬clear (before ++ event :: before') other ∧
        ∀ value', ¬write (before ++ event :: before') other value'

lemma not_newest_nil (value : β) : ¬Newest write clear [] value := by
  rintro ⟨before, event, after, heq, -⟩
  simp at heq

/-- The last event has written the value, or it has left the cell alone. -/
lemma newest_concat {events : List α} {event : α} {value : β} :
    Newest write clear (events ++ [event]) value ↔ write events event value ∨
      (¬clear events event ∧ ∀ value', ¬write events event value') ∧
        Newest write clear events value := by
  constructor
  · rintro ⟨before, first, after, heq, hwrite, hrest⟩
    rcases List.eq_nil_or_concat after with rfl | ⟨after, last, rfl⟩
    · obtain ⟨rfl, hlast⟩ := List.append_inj' heq rfl
      obtain rfl : event = first := by simpa using hlast
      exact Or.inl hwrite
    · have heq' : events ++ [event] = (before ++ first :: after) ++ [last] := by
        rw [heq]
        simp
      obtain ⟨rfl, hlast⟩ := List.append_inj' heq' rfl
      obtain rfl : event = last := by simpa using hlast
      refine Or.inr ⟨hrest after event [] (by simp), before, first, after, rfl, hwrite, ?_⟩
      intro before' other after' hafter
      exact hrest before' other (after' ++ [event]) (by simp [hafter])
  · rintro (hwrite | ⟨huntouched, before, first, after, rfl, hwrite, hrest⟩)
    · exact ⟨events, event, [], rfl, hwrite, fun before' other after' h => by simp at h⟩
    · refine ⟨before, first, after ++ [event], by simp, hwrite, ?_⟩
      intro before' other after' hafter
      rcases List.eq_nil_or_concat after' with rfl | ⟨after', last, rfl⟩
      · obtain ⟨rfl, hlast⟩ := List.append_inj' hafter rfl
        obtain rfl : event = other := by simpa using hlast
        exact huntouched
      · have hafter' : after ++ [event] = (before' ++ other :: after') ++ [last] := by
          rw [hafter]
          simp
        exact hrest before' other after' (List.append_inj' hafter' rfl).1

/-- What a cell holds that is empty at first. -/
theorem eq_some_iff_newest {cell : List α → Option β} (hnil : cell [] = none)
    (hwrite : ∀ events event value, write events event value →
      cell (events ++ [event]) = some value)
    (hclear : ∀ events event, clear events event → cell (events ++ [event]) = none)
    (hkeep : ∀ events event, ¬clear events event → (∀ value, ¬write events event value) →
      cell (events ++ [event]) = cell events) (events : List α) (value : β) :
    cell events = some value ↔ Newest write clear events value := by
  induction events using List.reverseRecOn with
  | nil => exact iff_of_false (by simp [hnil]) (not_newest_nil value)
  | append_singleton events event ih =>
      rw [newest_concat, ← ih]
      by_cases hc : clear events event
      · rw [hclear events event hc]
        refine iff_of_false (by simp) ?_
        rintro (hw | ⟨⟨hnot, -⟩, -⟩)
        · exact absurd ((hclear events event hc).symm.trans (hwrite _ _ _ hw)) (by simp)
        · exact hnot hc
      · by_cases hw : ∃ value', write events event value'
        · obtain ⟨value', hw⟩ := hw
          rw [hwrite events event value' hw]
          constructor
          · rintro ⟨⟩
            exact Or.inl hw
          · rintro (hw' | ⟨⟨-, hnot⟩, -⟩)
            · exact (hwrite _ _ _ hw).symm.trans (hwrite _ _ _ hw')
            · exact absurd hw (hnot value')
        · have hnot : ∀ value', ¬write events event value' := fun value' h => hw ⟨value', h⟩
          rw [hkeep events event hc hnot]
          exact ⟨fun h => Or.inr ⟨⟨hc, hnot⟩, h⟩, fun h => (h.resolve_left (hnot value)).2⟩

end Lib
