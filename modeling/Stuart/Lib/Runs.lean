/-
Runs of a deterministic transition function.

A system is a partial function `step : S → A → Option S`: what happens is chosen by the action,
and `none` says that the action is not possible in that state.  An interleaving of several
parties is then a list of actions.  `AllSteps` collects what is assumed of every step of a run;
an invariant that each such step keeps holds in the state a run ends in, and the states on the
way are those that the initial parts of the run end in.
-/
import Mathlib.Data.List.Basic

namespace Lib

variable {S A : Type*}

/-- The state after a list of actions, if all of them are possible. -/
def run (step : S → A → Option S) : S → List A → Option S
  | s, [] => some s
  | s, a :: as => (step s a).bind fun s' => run step s' as

/-- Every step of the run satisfies `P`, a condition on the state before it and the action. -/
def AllSteps (step : S → A → Option S) (P : S → A → Prop) : S → List A → Prop
  | _, [] => True
  | s, a :: as => P s a ∧ ∀ s' ∈ step s a, AllSteps step P s' as

instance decidableAllSteps (step : S → A → Option S) (P : S → A → Prop)
    [hP : ∀ s a, Decidable (P s a)] : ∀ s as, Decidable (AllSteps step P s as)
  | _, [] => inferInstanceAs (Decidable True)
  | s, a :: as =>
      have : ∀ s', Decidable (AllSteps step P s' as) := fun s' =>
        decidableAllSteps step P s' as
      have : Decidable (∀ s' ∈ step s a, AllSteps step P s' as) :=
        match step s a with
        | none => isTrue (by simp)
        | some s' => decidable_of_iff (AllSteps step P s' as) (by simp)
      inferInstanceAs (Decidable (_ ∧ _))

/-- Some step of the run satisfies `Q`, a condition on the state before it and the action. -/
def SomeStep (step : S → A → Option S) (Q : S → A → Prop) : S → List A → Prop
  | _, [] => False
  | s, a :: as => Q s a ∨ ∃ s' ∈ step s a, SomeStep step Q s' as

variable {step : S → A → Option S} {P Q : S → A → Prop}

@[simp] lemma run_nil (s : S) : run step s [] = some s := rfl

@[simp] lemma run_cons (s : S) (a : A) (as : List A) :
    run step s (a :: as) = (step s a).bind fun s' => run step s' as := rfl

lemma run_append (s : S) (as bs : List A) :
    run step s (as ++ bs) = (run step s as).bind fun s' => run step s' bs := by
  induction as generalizing s with
  | nil => rfl
  | cons a as ih =>
      simp only [List.cons_append, run_cons, Option.bind_assoc]
      congr 1
      funext s'
      exact ih s'

@[simp] lemma allSteps_nil (s : S) : AllSteps step P s [] := trivial

lemma allSteps_cons {s : S} {a : A} {as : List A} :
    AllSteps step P s (a :: as) ↔ P s a ∧ ∀ s' ∈ step s a, AllSteps step P s' as := Iff.rfl

lemma AllSteps.imp {s : S} {as : List A} (h : AllSteps step P s as) (hpq : ∀ s a, P s a → Q s a) :
    AllSteps step Q s as := by
  induction as generalizing s with
  | nil => trivial
  | cons a as ih => exact ⟨hpq s a h.1, fun s' hs' => ih (h.2 s' hs')⟩

lemma allSteps_true (s : S) (as : List A) : AllSteps step (fun _ _ => True) s as := by
  induction as generalizing s with
  | nil => trivial
  | cons a as ih => exact ⟨trivial, fun s' _ => ih s'⟩

/-- A condition on the actions only. -/
lemma allSteps_action {Q : A → Prop} {s t : S} {as : List A} (hrun : run step s as = some t) :
    AllSteps step (fun _ a => Q a) s as ↔ ∀ a ∈ as, Q a := by
  induction as generalizing s with
  | nil => exact iff_of_true trivial (by simp)
  | cons a as ih =>
      rw [run_cons, Option.bind_eq_some_iff] at hrun
      obtain ⟨s', hs', hrun⟩ := hrun
      rw [allSteps_cons, hs', List.forall_mem_cons, ← ih hrun]
      simp

/-- What is assumed of every step of a run is assumed of every step of its initial parts. -/
lemma AllSteps.of_append {s : S} {as bs : List A} (h : AllSteps step P s (as ++ bs)) :
    AllSteps step P s as := by
  induction as generalizing s with
  | nil => trivial
  | cons a as ih => exact ⟨h.1, fun s' hs' => ih (h.2 s' hs')⟩

/-- What is assumed of every step of a run is assumed of every step after its initial part. -/
lemma AllSteps.after {s t : S} {as bs : List A} (h : AllSteps step P s (as ++ bs))
    (hrun : run step s as = some t) : AllSteps step P t bs := by
  induction as generalizing s with
  | nil =>
      obtain rfl := Option.some.inj hrun
      exact h
  | cons a as ih =>
      rw [run_cons, Option.bind_eq_some_iff] at hrun
      obtain ⟨s', hs', hrun⟩ := hrun
      exact ih (h.2 s' hs') hrun

/-- The invariant rule. -/
theorem invariant_run {I : S → Prop} {s t : S} {as : List A}
    (hstep : ∀ s a s', a ∈ as → I s → P s a → step s a = some s' → I s') (hs : I s)
    (hall : AllSteps step P s as) (hrun : run step s as = some t) : I t := by
  induction as generalizing s with
  | nil =>
      obtain rfl := Option.some.inj hrun
      exact hs
  | cons a as ih =>
      rw [run_cons, Option.bind_eq_some_iff] at hrun
      obtain ⟨s', hs', hrun⟩ := hrun
      refine ih (fun u b u' hb => hstep u b u' (List.mem_cons_of_mem a hb)) ?_ (hall.2 s' hs') hrun
      exact hstep s a s' List.mem_cons_self hs hall.1 hs'

/-- Two conditions on a step are the same for whole runs if an invariant makes them the same. -/
theorem allSteps_congr {I : S → Prop} {s : S} {as : List A}
    (hstep : ∀ s a s', I s → step s a = some s' → I s') (hiff : ∀ s a, I s → (P s a ↔ Q s a))
    (hs : I s) : AllSteps step P s as ↔ AllSteps step Q s as := by
  induction as generalizing s with
  | nil => exact Iff.rfl
  | cons a as ih =>
      rw [allSteps_cons, allSteps_cons, hiff s a hs]
      exact and_congr_right fun _ => forall₂_congr fun s' hs' => ih (hstep s a s' hs hs')

/-- What a step keeps exactly if it satisfies `P` holds at the end of a run if it did at its
beginning and every step satisfies `P`. -/
theorem holds_iff_allSteps {I G : S → Prop} {s t : S} {as : List A}
    (hstep : ∀ s a s', I s → step s a = some s' → I s')
    (hiff : ∀ s a s', I s → step s a = some s' → (G s' ↔ G s ∧ P s a)) (hs : I s)
    (hrun : run step s as = some t) : G t ↔ G s ∧ AllSteps step P s as := by
  induction as generalizing s with
  | nil =>
      obtain rfl := Option.some.inj hrun
      exact (and_iff_left trivial).symm
  | cons a as ih =>
      rw [run_cons, Option.bind_eq_some_iff] at hrun
      obtain ⟨s', hs', hrun⟩ := hrun
      have hrest : AllSteps step P s (a :: as) ↔ P s a ∧ AllSteps step P s' as := by
        rw [allSteps_cons, hs']
        simp
      rw [ih (hstep s a s' hs hs') hrun, hiff s a s' hs hs', hrest, and_assoc]

/-- What a step from a good state keeps exactly if it satisfies `P` holds all along a run iff every
step satisfies `P`. -/
theorem always_iff_allSteps {I G : S → Prop} {s t : S} {as : List A}
    (hstep : ∀ s a s', I s → step s a = some s' → I s')
    (hiff : ∀ s a s', I s → G s → step s a = some s' → (G s' ↔ P s a)) (hs : I s) (hG : G s)
    (hrun : run step s as = some t) :
    (∀ pre u, pre <+: as → run step s pre = some u → G u) ↔ AllSteps step P s as := by
  induction as generalizing s with
  | nil =>
      refine iff_of_true (fun pre u hpre hu => ?_) trivial
      obtain rfl := List.prefix_nil.1 hpre
      obtain rfl := Option.some.inj hu
      exact hG
  | cons a as ih =>
      rw [run_cons, Option.bind_eq_some_iff] at hrun
      obtain ⟨s', hs', hrun⟩ := hrun
      have hI := hstep s a s' hs hs'
      constructor
      · intro h
        have hG' : G s' := h [a] s' ⟨as, rfl⟩ (by simp [hs'])
        refine ⟨(hiff s a s' hs hG hs').1 hG', fun s'' hs'' => ?_⟩
        obtain rfl := Option.some.inj (hs'.symm.trans hs'')
        refine (ih hI hG' hrun).1 fun pre u hpre hu => ?_
        refine h (a :: pre) u (List.cons_prefix_cons.2 ⟨rfl, hpre⟩) ?_
        rw [run_cons, hs']
        exact hu
      · rintro ⟨hP, hrest⟩ pre u hpre hu
        cases pre with
        | nil =>
            obtain rfl := Option.some.inj hu
            exact hG
        | cons b pre =>
            obtain ⟨rfl, htail⟩ := List.cons_prefix_cons.1 hpre
            rw [run_cons, hs'] at hu
            exact (ih hI ((hiff s b s' hs hG hs').2 hP) hrun).2 (hrest s' hs') pre u htail hu

/-- Either some step satisfies `Q`, or every step fails to. -/
lemma not_someStep {s : S} {as : List A} :
    ¬SomeStep step Q s as ↔ AllSteps step (fun s a => ¬Q s a) s as := by
  induction as generalizing s with
  | nil => exact ⟨fun _ => trivial, fun _ h => h⟩
  | cons a as ih =>
      simp only [SomeStep, AllSteps, not_or, not_exists, not_and, ih]

/-- The rule for what one step establishes and all further steps keep. -/
theorem established_run {I J : S → Prop} {s t : S} {as : List A}
    (hI : ∀ s a s', I s → P s a → step s a = some s' → I s')
    (hQ : ∀ s a s', I s → P s a → Q s a → step s a = some s' → J s')
    (hJ : ∀ s a s', J s → P s a → step s a = some s' → J s') (hs : I s)
    (hall : AllSteps step P s as) (hsome : SomeStep step Q s as) (hrun : run step s as = some t) :
    J t := by
  induction as generalizing s with
  | nil => exact absurd hsome id
  | cons a as ih =>
      rw [run_cons, Option.bind_eq_some_iff] at hrun
      obtain ⟨s', hs', hrun⟩ := hrun
      rcases hsome with hq | ⟨u, hu, hsome⟩
      · exact invariant_run (fun u b u' _ => hJ u b u') (hQ s a s' hs hall.1 hq hs')
          (hall.2 s' hs') hrun
      · obtain rfl := Option.some.inj (hs'.symm.trans hu)
        exact ih (hI s a s' hs hall.1 hs') (hall.2 s' hs') hsome hrun

/-! ### Results -/

section Results

variable {T R : Type*}

/-- The results of a list of operations, each of which always succeeds, and the state after
them. -/
def results (perform : S → A → R × S) : S → List A → List R × S
  | s, [] => ([], s)
  | s, a :: as =>
      ((perform s a).1 :: (results perform (perform s a).2 as).1,
        (results perform (perform s a).2 as).2)

/-- Two systems have the same results if a relation of their states makes the results of an
operation equal and is kept by it. -/
theorem results_simulation {perform : S → A → R × S} {perform' : T → A → R × T}
    {Rel : S → T → Prop}
    (hstep : ∀ s t a, Rel s t →
      (perform s a).1 = (perform' t a).1 ∧ Rel (perform s a).2 (perform' t a).2)
    {s : S} {t : T} (h : Rel s t) (as : List A) :
    (results perform s as).1 = (results perform' t as).1 ∧
      Rel (results perform s as).2 (results perform' t as).2 := by
  induction as generalizing s t with
  | nil => exact ⟨rfl, h⟩
  | cons a as ih =>
      obtain ⟨hresult, hnext⟩ := hstep s t a h
      obtain ⟨hresults, hend⟩ := ih hnext
      refine ⟨?_, hend⟩
      show _ :: _ = _ :: _
      rw [hresult, hresults]

end Results

/-! ### Histories -/

section History

variable {E : Type*} {Q : List E → E → Prop} {log : List E}

/-- Every event of a history is allowed by what happened before it. -/
def Allowed (Q : List E → E → Prop) (log : List E) : Prop :=
  ∀ before event after, log = before ++ event :: after → Q before event

lemma allowed_nil : Allowed Q [] := fun before event after h => by simp at h

lemma allowed_concat {event : E} : Allowed Q (log ++ [event]) ↔ Allowed Q log ∧ Q log event := by
  constructor
  · intro h
    refine ⟨fun before e after hlog => ?_, h log event [] rfl⟩
    exact h before e (after ++ [event]) (by simp [hlog])
  · rintro ⟨hlog, hevent⟩ before e after hsplit
    rcases List.eq_nil_or_concat' after with rfl | ⟨init, last, rfl⟩
    · obtain ⟨rfl, hlast⟩ := List.append_inj' hsplit rfl
      obtain rfl := List.singleton_inj.1 hlast
      exact hevent
    · rw [← List.cons_append, ← List.append_assoc] at hsplit
      obtain ⟨hinit, -⟩ := List.append_inj' hsplit rfl
      exact hlog before e init hinit

/-- Events that are always allowed. -/
lemma allowed_append {events : List E} (h : ∀ event ∈ events, ∀ before, Q before event) :
    Allowed Q (log ++ events) ↔ Allowed Q log := by
  induction events generalizing log with
  | nil => rw [List.append_nil]
  | cons event events ih =>
      rw [← List.singleton_append, ← List.append_assoc,
        ih fun e he => h e (List.mem_cons_of_mem event he), allowed_concat]
      exact and_iff_left (h event List.mem_cons_self log)

end History

/-- Parties whose places are a list: a step of one leaves the others where they are. -/
lemma getElem?_set_of_some {α : Type*} {l : List α} {i : ℕ} {old : α} (h : l[i]? = some old)
    (new : α) (k : ℕ) : (l.set i new)[k]? = if k = i then some new else l[k]? := by
  have hlt : i < l.length := (List.getElem?_eq_some_iff.1 h).1
  rw [List.getElem?_set]
  by_cases heq : i = k
  · rw [if_pos heq, if_pos hlt, if_pos heq.symm]
  · rw [if_neg heq, if_neg (Ne.symm heq)]

/-- A new party comes last. -/
lemma getElem?_concat_eq_ite {α : Type*} (l : List α) (new : α) (k : ℕ) :
    (l ++ [new])[k]? = if k = l.length then some new else l[k]? := by
  rw [List.getElem?_append]
  split_ifs with hlt heq heq
  · omega
  · rfl
  · rw [heq, Nat.sub_self]
    rfl
  · rw [List.getElem?_eq_none (by simp; omega), List.getElem?_eq_none (by omega)]

lemma getElem?_concat_eq_some {α : Type*} {l : List α} {k : ℕ} {new x : α} :
    (l ++ [new])[k]? = some x ↔ l[k]? = some x ∨ k = l.length ∧ x = new := by
  rw [getElem?_concat_eq_ite]
  split_ifs with heq
  · rw [List.getElem?_eq_none (by omega), Option.some_inj]
    simp [heq, eq_comm]
  · simp [heq]

end Lib
