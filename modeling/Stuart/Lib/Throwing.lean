/-
Programs that may throw.

A program runs in a state and ends with a value or an exception, if it ends at all.  A triple says
what holds in the state where it ends, in the one case and in the other; there is one rule for each
way to build a program.  A loop is run with fuel, and its rule has a bound that goes down with each
round, which shows that the fuel lasts (`triple_rounds`).
-/
import Mathlib.Tactic.Common

namespace Lib

/-- How a program ends. -/
inductive Outcome (X α : Type) where
  | returned (a : α)
  | thrown (x : X)
  /-- the program waits and never ends -/
  | waiting
deriving DecidableEq

/-- A program with states `S` and exceptions `X`. -/
def Throwing (S X α : Type) := S → Outcome X α × S

namespace Throwing

variable {S X α β : Type}

/-- The next program does not start after an exception. -/
def andThen (p : Throwing S X α) (f : α → Throwing S X β) : Throwing S X β := fun s =>
  match p s with
  | (.returned a, s') => f a s'
  | (.thrown x, s') => (.thrown x, s')
  | (.waiting, s') => (.waiting, s')

instance : Monad (Throwing S X) where
  pure a := fun s => (.returned a, s)
  bind := andThen

/-- A change of the state that does not throw. -/
def change (f : S → S) : Throwing S X Unit := fun s => (.returned (), f s)

/-- A value of the state. -/
def look (f : S → α) : Throwing S X α := fun s => (.returned (f s), s)

/-- `try p finally final`. -/
def withFinally (p : Throwing S X α) (final : S → S) : Throwing S X α := fun s =>
  match p s with
  | (.returned a, s') => (.returned a, final s')
  | (.thrown x, s') => (.thrown x, final s')
  | (.waiting, s') => (.waiting, s')

/-- `try p catch`, where `handler` has a value for the exceptions that are caught. -/
def catching (p : Throwing S X α) (handler : X → Option α) : Throwing S X α := fun s =>
  match p s with
  | (.thrown x, s') =>
      match handler x with
      | some a => (.returned a, s')
      | none => (.thrown x, s')
  | result => result

/-- Rounds are made as long as they return `true`. -/
def rounds (round : Throwing S X Bool) : ℕ → Throwing S X Unit
  | 0 => fun s => (.waiting, s)
  | fuel + 1 => andThen round fun again => if again then rounds round fuel else pure ()

/-! ### Triples -/

/-- `Q` holds after a value, `E` after an exception, and `W` where the program waits. -/
def Post (Q : α → S → Prop) (E : X → S → Prop) (W : S → Prop) : Outcome X α × S → Prop
  | (.returned a, s) => Q a s
  | (.thrown x, s) => E x s
  | (.waiting, s) => W s

/-- If the program starts where `P` holds, `Q` holds where it returns, `E` where it throws and `W`
where it waits. -/
def Triple (P : S → Prop) (p : Throwing S X α) (Q : α → S → Prop) (E : X → S → Prop)
    (W : S → Prop) : Prop := ∀ s, P s → Post Q E W (p s)

variable {P W : S → Prop} {p : Throwing S X α} {Q : α → S → Prop} {E : X → S → Prop}

lemma Triple.weaken {P' : S → Prop} {Q' : α → S → Prop} {E' : X → S → Prop}
    (h : Triple P p Q E W) (hP : ∀ s, P' s → P s) (hQ : ∀ a s, Q a s → Q' a s)
    (hE : ∀ x s, E x s → E' x s) : Triple P' p Q' E' W := by
  intro s hs
  have hpost := h s (hP s hs)
  rcases hrun : p s with ⟨a | x | _, s'⟩ <;> rw [hrun] at hpost
  · exact hQ a s' hpost
  · exact hE x s' hpost
  · exact hpost

lemma triple_pure {a : α} (h : ∀ s, P s → Q a s) : Triple P (pure a : Throwing S X α) Q E W := h

lemma triple_change {f : S → S} {Q : Unit → S → Prop} (h : ∀ s, P s → Q () (f s)) :
    Triple P (change f : Throwing S X Unit) Q E W := h

lemma triple_look {f : S → α} (h : ∀ s, P s → Q (f s) s) :
    Triple P (look f : Throwing S X α) Q E W := h

lemma triple_bind {f : α → Throwing S X β} {R : α → S → Prop} {Q : β → S → Prop}
    (hp : Triple P p R E W) (hf : ∀ a, Triple (R a) (f a) Q E W) : Triple P (p >>= f) Q E W := by
  intro s hs
  have hpost := hp s hs
  show Post Q E W (andThen p f s)
  simp only [andThen]
  rcases hrun : p s with ⟨a | x | _, s'⟩ <;> rw [hrun] at hpost
  · exact hf a s' hpost
  · exact hpost
  · exact hpost

lemma triple_ite {c : Prop} [Decidable c] {q : Throwing S X α} (hp : c → Triple P p Q E W)
    (hq : ¬c → Triple P q Q E W) : Triple P (if c then p else q) Q E W := by
  split_ifs with hc
  · exact hp hc
  · exact hq hc

/-- The last part is done in either case. -/
lemma triple_withFinally {final : S → S} {Q' : α → S → Prop} {E' : X → S → Prop}
    (h : Triple P p Q E W) (hQ : ∀ a s, Q a s → Q' a (final s))
    (hE : ∀ x s, E x s → E' x (final s)) : Triple P (withFinally p final) Q' E' W := by
  intro s hs
  have hpost := h s hs
  simp only [withFinally]
  rcases hrun : p s with ⟨a | x | _, s'⟩ <;> rw [hrun] at hpost
  · exact hQ a s' hpost
  · exact hE x s' hpost
  · exact hpost

lemma triple_catching {handler : X → Option α} {E' : X → S → Prop} (h : Triple P p Q E W)
    (hcaught : ∀ x s a, E x s → handler x = some a → Q a s)
    (hpassed : ∀ x s, E x s → handler x = none → E' x s) :
    Triple P (catching p handler) Q E' W := by
  intro s hs
  have hpost := h s hs
  simp only [catching]
  rcases hrun : p s with ⟨a | x | _, s'⟩ <;> rw [hrun] at hpost
  · exact hpost
  · dsimp only
    cases hhandler : handler x with
    | none => exact hpassed x s' hpost hhandler
    | some a => exact hcaught x s' a hpost hhandler
  · exact hpost

/-- The rule of the loop.  Each round that is not the last one makes the bound of the invariant
smaller, so the fuel lasts. -/
lemma triple_rounds {P : ℕ → S → Prop} {round : Throwing S X Bool} {Q : Unit → S → Prop}
    (h : ∀ n, Triple (P n) round (fun again s => if again then ∃ m < n, P m s else Q () s) E W)
    {n fuel : ℕ} (hfuel : n < fuel) : Triple (P n) (rounds round fuel) Q E W := by
  induction fuel generalizing n with
  | zero => exact absurd hfuel (Nat.not_lt_zero n)
  | succ fuel ih =>
      refine triple_bind (h n) fun again => ?_
      cases again with
      | true =>
          rintro s ⟨m, hless, hs⟩
          exact ih (by omega) s hs
      | false => exact triple_pure fun s hs => hs

/-! ### Runs that return -/

lemma andThen_of_returned {f : α → Throwing S X β} {s s' : S} {a : α}
    (h : p s = (.returned a, s')) : (p >>= f) s = f a s' := by
  show andThen p f s = _
  simp only [andThen]
  rw [h]

lemma withFinally_of_returned {final : S → S} {s s' : S} {a : α} (h : p s = (.returned a, s')) :
    withFinally p final s = (.returned a, final s') := by
  simp only [withFinally]
  rw [h]

lemma catching_of_returned {handler : X → Option α} {s s' : S} {a : α}
    (h : p s = (.returned a, s')) : catching p handler s = (.returned a, s') := by
  simp only [catching]
  rw [h]

end Throwing

end Lib
