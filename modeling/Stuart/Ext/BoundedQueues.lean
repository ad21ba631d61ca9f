/-
The operations of the two bounded queues.

`BoundedConcurrentLinkedQueue` polls before it adds, and its `add` goes through a method of the
superclass that calls the overridden `offer` again; `BoundedIgniteQueue` offers and polls in turn
until the Ignite queue takes the element.  Both are the queue that keeps the newest elements
(`DropOldest`): a queue never holds more than its capacity, so that one poll always makes room
and there is never a second one (`queues_agree`).
-/
import Stuart.Ext.Collections
import Stuart.Lib.Runs
import Mathlib.Data.List.DropRight

namespace Stuart

open List Lib

/-- An operation on a bounded queue. -/
inductive QueueOp (E : Type) where
  | add (element : E)
  | offer (element : E)
  | addAll (elements : List E)
  | addExt (element : E)
  | offerExt (element : E)
  | addAllExt (elements : List E)
  | poll
  | peek
  | isEmpty
  | size

/-- What an operation returns. -/
inductive QueueResult (E : Type) where
  | answer (result : Bool)
  | count (result : ℤ)
  | element (result : Option E)
deriving DecidableEq

variable {E : Type}

namespace BoundedQueue

def poll (q : BoundedQueue E) : Option E × BoundedQueue E :=
  (q.items.head?, { q with items := q.items.tail })

def peek (q : BoundedQueue E) : Option E := q.items.head?

def isEmpty (q : BoundedQueue E) : Bool := q.items.isEmpty

def size (q : BoundedQueue E) : ℕ := q.items.length

end BoundedQueue

namespace BoundedConcurrentLinkedQueue

/-- `ConcurrentLinkedQueue.offer`, which knows no capacity. -/
def superOffer (q : BoundedQueue E) (element : E) : BoundedQueue E :=
  { q with items := q.items ++ [element] }

/-- `add` polls on its own and then calls `super.add`, which is the overridden `offer`. -/
def add (q : BoundedQueue E) (element : E) : Bool × BoundedQueue E :=
  (true, offer (if q.isFull then q.poll.2 else q) element)

def addAll (q : BoundedQueue E) (elements : List E) : Bool × BoundedQueue E :=
  elements.foldl (fun state element => add state.2 element) (false, q)

def offerExt (q : BoundedQueue E) (element : E) : ℤ × BoundedQueue E :=
  if q.isFull then (1, superOffer q.poll.2 element) else (0, superOffer q element)

def addAllExt (q : BoundedQueue E) (elements : List E) : ℤ × BoundedQueue E :=
  elements.foldl (fun state element =>
    let result := addExt state.2 element
    (if result.1 ≠ -1 then state.1 + result.1 else state.1, result.2)) (0, q)

def perform (q : BoundedQueue E) : QueueOp E → QueueResult E × BoundedQueue E
  | .add element => (.answer (add q element).1, (add q element).2)
  | .offer element => (.answer true, offer q element)
  | .addAll elements => (.answer (addAll q elements).1, (addAll q elements).2)
  | .addExt element => (.count (addExt q element).1, (addExt q element).2)
  | .offerExt element => (.count (offerExt q element).1, (offerExt q element).2)
  | .addAllExt elements => (.count (addAllExt q elements).1, (addAllExt q elements).2)
  | .poll => (.element q.poll.1, q.poll.2)
  | .peek => (.element q.peek, q)
  | .isEmpty => (.answer q.isEmpty, q)
  | .size => (.count q.size, q)

end BoundedConcurrentLinkedQueue

namespace BoundedIgniteQueue

/-- The loop of `offer` over the elements that are still there: poll until the Ignite queue takes
the new element. -/
def offerFrom (capacity : ℤ) (element : E) : List E → Bool × BoundedQueue E
  | [] => (true, ⟨capacity, [element]⟩)
  | first :: rest =>
      if BoundedQueue.isFull ⟨capacity, first :: rest⟩ then offerFrom capacity element rest
      else (true, ⟨capacity, first :: rest ++ [element]⟩)

def offer (q : BoundedQueue E) (element : E) : Bool × BoundedQueue E :=
  offerFrom q.capacity element q.items

def add (q : BoundedQueue E) (element : E) : Bool × BoundedQueue E := offer q element

def addAll (q : BoundedQueue E) (elements : List E) : Bool × BoundedQueue E :=
  elements.foldl (fun state element => add state.2 element) (false, q)

def offerExt (q : BoundedQueue E) (element : E) : ℤ × BoundedQueue E :=
  offerExtFrom q.capacity element 0 q.items

def addAllExt (q : BoundedQueue E) (elements : List E) : ℤ × BoundedQueue E :=
  elements.foldl (fun state element =>
    (state.1 + (addExt state.2 element).1, (addExt state.2 element).2)) (0, q)

def perform (q : BoundedQueue E) : QueueOp E → QueueResult E × BoundedQueue E
  | .add element => (.answer (add q element).1, (add q element).2)
  | .offer element => (.answer (offer q element).1, (offer q element).2)
  | .addAll elements => (.answer (addAll q elements).1, (addAll q elements).2)
  | .addExt element => (.count (addExt q element).1, (addExt q element).2)
  | .offerExt element => (.count (offerExt q element).1, (offerExt q element).2)
  | .addAllExt elements => (.count (addAllExt q elements).1, (addAllExt q elements).2)
  | .poll => (.element q.poll.1, q.poll.2)
  | .peek => (.element q.peek, q)
  | .isEmpty => (.answer q.isEmpty, q)
  | .size => (.count q.size, q)

end BoundedIgniteQueue

/-! ### The queue of the newest elements -/

namespace DropOldest

/-- The newest elements, as many as the capacity admits. -/
def newest (capacity : ℤ) (items : List E) : List E :=
  if capacity > 0 then items.rtake capacity.toNat else items

/-- How many elements are given up for new ones. -/
def dropped (capacity : ℤ) (items elements : List E) : ℤ :=
  (items ++ elements).length - (newest capacity (items ++ elements)).length

/-- The operations on the elements of a queue, the first one in front: new elements come last,
and only the newest ones are kept. -/
def perform (capacity : ℤ) (items : List E) : QueueOp E → QueueResult E × List E
  | .add element | .offer element => (.answer true, newest capacity (items ++ [element]))
  | .addAll elements => (.answer (!elements.isEmpty), newest capacity (items ++ elements))
  | .addExt element | .offerExt element =>
      (.count (dropped capacity items [element]), newest capacity (items ++ [element]))
  | .addAllExt elements =>
      (.count (dropped capacity items elements), newest capacity (items ++ elements))
  | .poll => (.element items.head?, items.tail)
  | .peek => (.element items.head?, items)
  | .isEmpty => (.answer items.isEmpty, items)
  | .size => (.count items.length, items)

variable (capacity : ℤ) (items elements : List E)

lemma length_newest : (newest capacity items).length =
    if capacity > 0 then min items.length capacity.toNat else items.length := by
  simp only [newest, rtake]
  split_ifs
  · rw [length_drop]
    omega
  · rfl

/-- What was given up once does not matter for what is kept in the end. -/
lemma newest_newest_append :
    newest capacity (newest capacity items ++ elements) = newest capacity (items ++ elements) := by
  simp only [newest, rtake]
  split_ifs with hpos
  · generalize capacity.toNat = n
    rw [← drop_append_of_le_length (Nat.sub_le _ _), drop_drop]
    congr 1
    simp only [length_drop, length_append]
    omega
  · rfl

/-- Elements that are given up one after the other are counted one after the other. -/
lemma dropped_append (elements' : List E) :
    dropped capacity items elements + dropped capacity (newest capacity (items ++ elements))
      elements' = dropped capacity items (elements ++ elements') := by
  simp only [dropped]
  rw [newest_newest_append, append_assoc]
  simp only [length_append]
  push_cast
  omega

end DropOldest

namespace BoundedQueue

open DropOldest

variable {q : BoundedQueue E}

/-- The queue with new elements at its end, as many of the newest as the capacity admits. -/
def keep (q : BoundedQueue E) (elements : List E) : BoundedQueue E :=
  ⟨q.capacity, newest q.capacity (q.items ++ elements)⟩

lemma keep_keep (q : BoundedQueue E) (elements elements' : List E) :
    (q.keep elements).keep elements' = q.keep (elements ++ elements') := by
  simp only [keep]
  rw [newest_newest_append, append_assoc]

lemma Bounded.keep_nil (h : q.Bounded) : q.keep [] = q := by
  simp only [keep, newest, rtake]
  rw [append_nil]
  split_ifs with hpos
  · have hle := h hpos
    rw [show q.items.length - q.capacity.toNat = 0 by omega, drop_zero]
  · rfl

lemma bounded_keep (q : BoundedQueue E) (elements : List E) : (q.keep elements).Bounded := by
  intro hpos
  show ((newest q.capacity (q.items ++ elements)).length : ℤ) ≤ q.capacity
  replace hpos : q.capacity > 0 := hpos
  rw [length_newest, if_pos hpos]
  omega

/-- One element is given up if the queue is full, which is what one poll does. -/
lemma Bounded.append_eq (h : q.Bounded) (element : E) : q.append element = q.keep [element] := by
  simp only [BoundedQueue.append, keep, newest, rtake]
  by_cases hfull : q.isFull = true
  · rw [if_pos hfull]
    simp only [isFull, decide_eq_true_eq] at hfull
    have hle := h hfull.1
    have hlen : (q.items ++ [element]).length - q.capacity.toNat = 1 := by
      rw [length_append, length_singleton]
      omega
    have hone : 1 ≤ q.items.length := by omega
    rw [if_pos hfull.1, hlen, drop_append_of_le_length hone, drop_one]
  · rw [if_neg hfull]
    split_ifs with hpos
    · have hlt : ¬(q.items.length : ℤ) ≥ q.capacity :=
        fun hge => hfull (by simp [isFull, hpos, hge])
      rw [length_append, length_singleton,
        show q.items.length + 1 - q.capacity.toNat = 0 by omega, drop_zero]
    · rfl

lemma Bounded.dropped_singleton (h : q.Bounded) (element : E) :
    dropped q.capacity q.items [element] = if q.isFull then 1 else 0 := by
  have heq := congrArg (fun q' : BoundedQueue E => (q'.items.length : ℤ)) (h.append_eq element)
  have hevicted := congrArg (fun l : List E => (l.length : ℤ)) (q.evicted_append_items element)
  simp only [length_append, keep] at heq hevicted
  push_cast at hevicted
  rw [length_evicted] at hevicted
  simp only [dropped]
  rw [length_append]
  push_cast
  omega

/-- A loop that adds one element after the other. -/
lemma foldl_add {add : BoundedQueue E → E → Bool × BoundedQueue E}
    (hadd : ∀ q element, q.Bounded → add q element = (true, q.keep [element])) (h : q.Bounded)
    (result : Bool) (elements : List E) :
    elements.foldl (fun state element => add state.2 element) (result, q) =
      (if elements.isEmpty then result else true, q.keep elements) := by
  induction elements generalizing q result with
  | nil => rw [foldl_nil, h.keep_nil]; rfl
  | cons element elements ih =>
      rw [foldl_cons, hadd q element h, ih (bounded_keep q _), keep_keep]
      simp

/-- A loop that adds one element after the other and counts those that are given up. -/
lemma foldl_addExt {addExt : ℤ × BoundedQueue E → E → ℤ × BoundedQueue E}
    (hadd : ∀ (count : ℤ) (q : BoundedQueue E) element, q.Bounded → addExt (count, q) element =
      (count + dropped q.capacity q.items [element], q.keep [element])) (h : q.Bounded)
    (count : ℤ) (elements : List E) :
    elements.foldl addExt (count, q) =
      (count + dropped q.capacity q.items elements, q.keep elements) := by
  induction elements generalizing q count with
  | nil =>
      have hnil := congrArg (fun q' : BoundedQueue E => (q'.items.length : ℤ)) h.keep_nil
      simp only [keep, append_nil] at hnil
      rw [foldl_nil, h.keep_nil]
      simp only [dropped]
      rw [append_nil, hnil, Int.sub_self, Int.add_zero]
  | cons element elements ih =>
      have hsum := dropped_append q.capacity q.items [element] elements
      rw [foldl_cons, hadd count q element h, ih (bounded_keep q _), keep_keep, Int.add_assoc]
      rw [show dropped (q.keep [element]).capacity (q.keep [element]).items elements =
        dropped q.capacity (newest q.capacity (q.items ++ [element])) elements from rfl, hsum]
      rfl

end BoundedQueue

open BoundedQueue DropOldest

/-! ### The two queues -/

variable {q : BoundedQueue E}

namespace BoundedConcurrentLinkedQueue

lemma offer_eq (h : q.Bounded) (element : E) : offer q element = q.keep [element] :=
  h.append_eq element

/-- After the poll of `add` the overridden `offer` finds room and does not poll again. -/
lemma add_eq (h : q.Bounded) (element : E) : add q element = (true, q.keep [element]) := by
  rw [← offer_eq h]
  simp only [add, offer]
  by_cases hfull : q.isFull = true
  · have htail : q.poll.2.isFull = false := isFull_tail h hfull
    rw [if_pos hfull, if_pos hfull, htail]
    rfl
  · rw [if_neg hfull]

lemma addExt_eq (h : q.Bounded) (element : E) :
    addExt q element = (dropped q.capacity q.items [element], q.keep [element]) := by
  rw [addExt_concurrent h, h.dropped_singleton, h.append_eq]

lemma offerExt_eq (h : q.Bounded) (element : E) :
    offerExt q element = (dropped q.capacity q.items [element], q.keep [element]) := by
  rw [h.dropped_singleton, ← h.append_eq]
  simp only [offerExt, append, superOffer, poll]
  split_ifs <;> rfl

lemma perform_eq (h : q.Bounded) (op : QueueOp E) : perform q op =
    ((DropOldest.perform q.capacity q.items op).1,
      ⟨q.capacity, (DropOldest.perform q.capacity q.items op).2⟩) := by
  have hall : ∀ elements, addAllExt q elements =
      (dropped q.capacity q.items elements, q.keep elements) := by
    intro elements
    refine (foldl_addExt (fun count q element h => ?_) h 0 elements).trans ?_
    · have hne : (addExt q element).1 ≠ -1 := by
        have := addExt_nonneg q element
        omega
      rw [addExt_eq h] at hne
      simp only [addExt_eq h, hne, ne_eq, not_false_eq_true, if_true]
    · rw [Int.zero_add]
  cases op with
  | add element => simp only [perform, add_eq h]; rfl
  | offer element => simp only [perform, offer_eq h]; rfl
  | addAll elements =>
      simp only [perform, addAll, foldl_add (fun q element h => add_eq h element) h]
      cases elements <;> rfl
  | addExt element => simp only [perform, addExt_eq h]; rfl
  | offerExt element => simp only [perform, offerExt_eq h]; rfl
  | addAllExt elements => simp only [perform, hall]; rfl
  | poll => rfl
  | peek => rfl
  | isEmpty => rfl
  | size => rfl

end BoundedConcurrentLinkedQueue

namespace BoundedIgniteQueue

/-- `offer` and `offerExt` run the same loop. -/
lemma offerFrom_eq (capacity : ℤ) (element : E) (count : ℤ) (items : List E) :
    offerFrom capacity element items =
      (true, (offerExtFrom capacity element count items).2) := by
  induction items generalizing count with
  | nil => rfl
  | cons first rest ih =>
      simp only [offerFrom, offerExtFrom]
      split_ifs
      · exact ih 1
      · rfl

lemma addExt_eq (h : q.Bounded) (element : E) :
    addExt q element = (dropped q.capacity q.items [element], q.keep [element]) := by
  rw [addExt_ignite h, h.dropped_singleton, h.append_eq]

lemma add_eq (h : q.Bounded) (element : E) : add q element = (true, q.keep [element]) := by
  have hloop : (offerExtFrom q.capacity element 0 q.items).2 = q.keep [element] :=
    congrArg Prod.snd (addExt_eq h element)
  simp only [add, offer]
  rw [offerFrom_eq _ _ 0, hloop]

lemma perform_eq (h : q.Bounded) (op : QueueOp E) : perform q op =
    ((DropOldest.perform q.capacity q.items op).1,
      ⟨q.capacity, (DropOldest.perform q.capacity q.items op).2⟩) := by
  have hall : ∀ elements, addAllExt q elements =
      (dropped q.capacity q.items elements, q.keep elements) := by
    intro elements
    refine (foldl_addExt (fun count q element h => ?_) h 0 elements).trans ?_
    · simp only [addExt_eq h]
    · rw [Int.zero_add]
  have hoffer : ∀ element, offer q element = (true, q.keep [element]) := add_eq h
  have hofferExt : ∀ element, offerExt q element =
      (dropped q.capacity q.items [element], q.keep [element]) := addExt_eq h
  cases op with
  | add element => simp only [perform, add_eq h]; rfl
  | offer element => simp only [perform, hoffer]; rfl
  | addAll elements =>
      simp only [perform, addAll, foldl_add (fun q element h => add_eq h element) h]
      cases elements <;> rfl
  | addExt element => simp only [perform, addExt_eq h]; rfl
  | offerExt element => simp only [perform, hofferExt]; rfl
  | addAllExt elements => simp only [perform, hall]; rfl
  | poll => rfl
  | peek => rfl
  | isEmpty => rfl
  | size => rfl

end BoundedIgniteQueue

namespace DropOldest

/-- An operation leaves no more elements than the capacity admits. -/
lemma bounded_perform {capacity : ℤ} {items : List E} (h : Bounded ⟨capacity, items⟩)
    (op : QueueOp E) : Bounded ⟨capacity, (perform capacity items op).2⟩ := by
  have hkeep : ∀ elements, Bounded ⟨capacity, newest capacity (items ++ elements)⟩ :=
    bounded_keep ⟨capacity, items⟩
  cases op with
  | add element | offer element | addExt element | offerExt element => exact hkeep [element]
  | addAll elements | addAllExt elements => exact hkeep elements
  | poll =>
      intro hpos
      have hle := h hpos
      show (items.tail.length : ℤ) ≤ capacity
      replace hle : (items.length : ℤ) ≤ capacity := hle
      rw [length_tail]
      omega
  | peek | isEmpty | size => exact h

/-- A queue whose operations are these on its elements has the same results. -/
lemma results_eq {perform' : BoundedQueue E → QueueOp E → QueueResult E × BoundedQueue E}
    (hperform : ∀ (q : BoundedQueue E) op, q.Bounded → perform' q op =
      ((perform q.capacity q.items op).1, ⟨q.capacity, (perform q.capacity q.items op).2⟩))
    (capacity : ℤ) (ops : List (QueueOp E)) :
    (results perform' ⟨capacity, []⟩ ops).1 = (results (perform capacity) [] ops).1 ∧
      (results perform' ⟨capacity, []⟩ ops).2 = ⟨capacity, (results (perform capacity) [] ops).2⟩ ∧
      (results perform' ⟨capacity, []⟩ ops).2.Bounded := by
  refine @results_simulation _ _ _ _ perform' (perform capacity)
    (fun (q : BoundedQueue E) items => q = ⟨capacity, items⟩ ∧ q.Bounded) ?_ _ _ ?_ ops
  · rintro q items op ⟨rfl, h⟩
    have hop := hperform ⟨capacity, items⟩ op h
    rw [hop]
    exact ⟨rfl, rfl, bounded_perform h op⟩
  · refine ⟨rfl, fun hpos => ?_⟩
    exact Int.le_of_lt hpos

end DropOldest

/-- From empty, the two queues and the queue of the newest elements return the same results and
hold the same elements in the same order, never more than a positive capacity. -/
theorem queues_agree (capacity : ℤ) (ops : List (QueueOp E)) :
    results BoundedConcurrentLinkedQueue.perform ⟨capacity, []⟩ ops =
      results BoundedIgniteQueue.perform ⟨capacity, []⟩ ops ∧
    (results BoundedIgniteQueue.perform ⟨capacity, []⟩ ops).1 =
      (results (DropOldest.perform capacity) [] ops).1 ∧
    (results BoundedIgniteQueue.perform ⟨capacity, []⟩ ops).2 =
      ⟨capacity, (results (DropOldest.perform capacity) [] ops).2⟩ ∧
    (capacity > 0 → ((results (DropOldest.perform capacity) [] ops).2.length : ℤ) ≤ capacity) := by
  obtain ⟨hresults, hitems, hbound⟩ := DropOldest.results_eq
    (fun q op (h : q.Bounded) => BoundedConcurrentLinkedQueue.perform_eq h op) capacity ops
  obtain ⟨hresults', hitems', -⟩ := DropOldest.results_eq
    (fun q op (h : q.Bounded) => BoundedIgniteQueue.perform_eq h op) capacity ops
  refine ⟨Prod.ext (hresults.trans hresults'.symm) (hitems.trans hitems'.symm), hresults',
    hitems', ?_⟩
  rw [hitems] at hbound
  exact hbound

end Stuart
