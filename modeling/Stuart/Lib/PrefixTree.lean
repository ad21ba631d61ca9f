/-
The walk over a set of stored paths that a wildcard search makes.

`stored` says which paths have a node; it is closed under taking nonempty prefixes.  Starting
below the path `pre`, the walk follows for each level of the searched word the children named
`one`, `many` and the level itself.  A `many` child ends the branch, and below the last level
the `many` child of the reached node is taken too.  `mem_walk` says that the walk finds
exactly the stored paths that accept the word.
-/
import Stuart.Lib.Levels
import Mathlib.Data.List.Dedup

namespace Lib
namespace PrefixTree

open List

variable {W : Type*} [DecidableEq W] (one many : W) (stored : List W → Bool)

/-- The stored children of `pre` that the search follows at the level `w`. -/
def children (pre : List W) (w : W) : List W :=
  [one, many, w].dedup.filter fun x => stored (pre ++ [x])

/-- The paths found below `pre` for the given levels. -/
def walk (pre : List W) : List W → List (List W)
  | [] => []
  | w :: ws => (children one many stored pre w).flatMap fun x =>
      if x = many then [pre ++ [x]]
      else match ws with
        | [] => (pre ++ [x]) ::
            (if stored (pre ++ [x] ++ [many]) then [pre ++ [x] ++ [many]] else [])
        | _ :: _ => walk (pre ++ [x]) ws

variable {one many stored}

lemma mem_children {pre : List W} {w x : W} :
    x ∈ children one many stored pre w ↔
      (x = one ∨ x = many ∨ x = w) ∧ stored (pre ++ [x]) = true := by
  simp [children]

/-- Every nonempty prefix of a stored path is stored. -/
def PrefixClosed (stored : List W → Bool) : Prop :=
  ∀ p x, p ≠ [] → stored (p ++ [x]) = true → stored p = true

omit [DecidableEq W] in
lemma PrefixClosed.append (h : PrefixClosed stored) {p : List W} (hp : p ≠ []) (q : List W)
    (hq : stored (p ++ q) = true) : stored p = true := by
  induction q using List.reverseRecOn with
  | nil => simpa using hq
  | append_singleton q x ih =>
      rw [← append_assoc] at hq
      exact ih (h _ x (by simp [hp]) hq)

/-- The walk finds exactly the stored paths below `pre` whose rest accepts the levels. -/
theorem mem_walk (hclosed : PrefixClosed stored) (hne : one ≠ many) {ws : List W} (hws : ws ≠ [])
    (hmany : many ∉ ws) {pre q : List W} :
    q ∈ walk one many stored pre ws ↔
      ∃ r, r ≠ [] ∧ q = pre ++ r ∧ stored q = true ∧ Accepts one many ws r := by
  induction ws generalizing pre q with
  | nil => exact absurd rfl hws
  | cons w ws ih =>
      simp only [mem_cons, not_or] at hmany
      obtain ⟨hw, hmany⟩ := hmany
      simp only [walk, mem_flatMap, mem_children]
      constructor
      · rintro ⟨x, ⟨hx, hst⟩, hq⟩
        -- the walk ends at `many`, and otherwise goes down by one level
        by_cases hxm : x = many
        · subst hxm
          simp only [if_true, mem_singleton] at hq
          exact ⟨[x], by simp, hq, hq ▸ hst, accepts_cons_cons.2 (Or.inl ⟨rfl, rfl⟩)⟩
        · have hx' : x = one ∨ x = w := by tauto
          rw [if_neg hxm] at hq
          -- below the last level stands a `many`, which matches no further level
          cases ws with
          | nil =>
              simp only [mem_cons] at hq
              rcases hq with rfl | hq
              · refine ⟨[x], by simp, rfl, hst, ?_⟩
                exact accepts_cons_cons.2 (Or.inr ⟨hx', by simp⟩)
              · split_ifs at hq with hchild
                · rw [mem_singleton] at hq
                  refine ⟨[x, many], by simp, by simp [hq], hq ▸ hchild, ?_⟩
                  exact accepts_cons_cons.2 (Or.inr ⟨hx', by simp⟩)
                · simp at hq
          | cons v vs =>
              obtain ⟨r, -, rfl, hq', hacc⟩ := (ih (by simp) hmany).1 hq
              refine ⟨x :: r, by simp, by simp, hq', ?_⟩
              exact accepts_cons_cons.2 (Or.inr ⟨hx', hacc⟩)
      · rintro ⟨r, hr, rfl, hst, hacc⟩
        obtain ⟨x, r, rfl⟩ := exists_cons_of_ne_nil hr
        have hsplit : pre ++ x :: r = (pre ++ [x]) ++ r := by simp
        -- the walk only meets stored prefixes, and all of them are
        have hstx : stored (pre ++ [x]) = true :=
          hclosed.append (by simp) r (hsplit ▸ hst)
        rcases accepts_cons_cons.1 hacc with ⟨rfl, rfl⟩ | ⟨hx, hacc⟩
        · exact ⟨x, ⟨by simp, hstx⟩, by simp⟩
        · have hxm : x ≠ many := by
            rcases hx with rfl | rfl
            · exact hne
            · exact Ne.symm hw
          refine ⟨x, ⟨by tauto, hstx⟩, ?_⟩
          rw [if_neg hxm]
          cases ws with
          | nil =>
              rcases accepts_nil_left.1 hacc with rfl | rfl
              · simp
              · rw [hsplit] at hst
                rw [hsplit, if_pos hst]
                simp
          | cons v vs =>
              have hr : r ≠ [] := by
                rintro rfl
                simp at hacc
              rw [hsplit]
              exact (ih (by simp) hmany).2 ⟨r, hr, rfl, hsplit ▸ hst, hacc⟩

end PrefixTree
end Lib
