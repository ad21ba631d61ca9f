/-
The expiring map with its clock and the tasks of the expirer.

One thread runs the tasks of `scheduleEntry`.  A task that is cancelled while it waits for its time
does not run any more, but a task that has begun cannot be stopped: it waits for the lock of the
map, and what other threads do to the map in the meantime it finds done.  So a task may come too
late for its entry, which was removed or put again, and then it takes out what is there under the
key.

However the threads take turns, the first entry is scheduled and its task is waiting or has begun,
and so no entry is forgotten: when there is no task to run, no entry is overdue (`not_overdue`).  If
nothing comes between the begin of a task and its lock, the tasks are exact: there is one, that of
the first entry, and each entry that was ever put is in the map, or was removed, or was handed to
the listener once, and not before its time (`expired_once`).  Otherwise an entry may be handed over
twice, or too early (`not_expired_once`).
-/
import Stuart.Ext.ExpiringMap
import Stuart.Lib.Simulation
import Mathlib.Data.List.Perm.Basic
import Mathlib.Data.List.TakeWhile

namespace Stuart

open List Lib

namespace Expirer

/-- An entry in the map, with the number of its object. -/
structure Held (K V : Type) extends ExpiringEntry K V where
  id : ℕ

/-- The runnable of `scheduleEntry`, with the entry that it was made for. -/
structure Task (K : Type) where
  id : ℕ
  key : K
  due : ℤ
deriving DecidableEq

/-- A call of the listener. -/
structure Firing (K : Type) where
  id : ℕ
  key : K
  expectedExpiration : ℤ
  time : ℤ
deriving DecidableEq

/-- A map with the policy `CREATED`, and the expirer. -/
structure State (K V : Type) where
  maxSize : ℤ
  expirationNanos : ℤ
  /-- `System.nanoTime()` -/
  now : ℤ
  /-- how many entries there have been -/
  created : ℕ
  entries : List (Held K V)
  /-- the tasks that wait for their time -/
  tasks : List (Task K)
  /-- the task that has begun and waits for the lock -/
  started : Option (Task K)
  /-- the entries that the expirer took out and that say they are scheduled -/
  leftover : List ℕ
  /-- the calls of the listener so far -/
  fired : List (Firing K)
  /-- the entries that `remove` and `clear` took out -/
  removed : List ℕ

inductive Action (K V : Type) where
  | put (key : K) (value : V)
  | remove (key : K)
  | clear
  /-- time passes -/
  | tick (nanos : ℕ)
  /-- the expirer begins a task whose time has come -/
  | start (task : Task K)
  /-- the task gets the lock and runs; an entry that is not in the map may have been collected -/
  | run (collected : Bool)

namespace State

variable {K V : Type} [DecidableEq K]

def getEntry (s : State K V) (key : K) : Option (Held K V) :=
  s.entries.find? fun entry => entry.key = key

/-- The entries under other keys. -/
def others (s : State K V) (key : K) : List (Held K V) :=
  s.entries.filter fun entry => entry.key ≠ key

omit [DecidableEq K] in
/-- `scheduleEntry(entries.first())`. -/
def scheduleFirst (s : State K V) : State K V :=
  match s.entries with
  | [] => s
  | entry :: rest =>
      if entry.scheduled then s
      else { s with
        entries := { entry with scheduled := true } :: rest
        tasks := s.tasks ++ [⟨entry.id, entry.key, entry.expectedExpiration⟩] }

/-- `scheduleEntry(entries.first())`, if the entry that was cancelled was scheduled. -/
def cancelled (s : State K V) (entry : Held K V) : State K V :=
  let s := { s with tasks := s.tasks.filter fun task => task.id ≠ entry.id }
  if entry.scheduled then s.scheduleFirst else s

variable [DecidableEq V]

def put (s : State K V) (key : K) (value : V) : State K V :=
  match s.getEntry key with
  | none =>
      if s.entries.length ≥ s.maxSize then s
      else
        let entry := ⟨⟨key, value, s.expirationNanos + s.now, false⟩, s.created⟩
        let s' := { s with entries := s.entries ++ [entry], created := s.created + 1 }
        if s'.entries.length = 1 then s'.scheduleFirst else s'
  | some entry =>
      if entry.value = value then s
      else
        -- `reorder` puts the entry last
        let entry' := ⟨⟨key, value, s.expirationNanos + s.now, false⟩, entry.id⟩
        { s with entries := s.others key ++ [entry'] }.cancelled entry

omit [DecidableEq V] in
def remove (s : State K V) (key : K) : State K V :=
  match s.getEntry key with
  | none => s
  | some entry =>
      { s with entries := s.others key, removed := s.removed ++ [entry.id] }.cancelled entry

omit [DecidableEq K] [DecidableEq V] in
def clear (s : State K V) : State K V :=
  { s with
    entries := []
    tasks := s.tasks.filter fun task => task.id ∉ s.entries.map Held.id
    removed := s.removed ++ s.entries.map Held.id }

/-! ### The tasks -/

omit [DecidableEq K] [DecidableEq V] in
/-- The entries that the expirer takes out of the map are not cancelled. -/
def leave (s : State K V) (taken : List (Held K V)) : List ℕ :=
  s.leftover ++ (taken.filter fun entry => entry.scheduled).map Held.id

omit [DecidableEq K] [DecidableEq V] in
/-- The listener is called for an entry. -/
def firing (s : State K V) (entry : Held K V) : Firing K :=
  ⟨entry.id, entry.key, entry.expectedExpiration, s.now⟩

omit [DecidableEq K] [DecidableEq V] in
/-- The loop of a task: it takes out the first entries as long as their time is over, and schedules
the entry that is first then. -/
def expire (s : State K V) : State K V :=
  let isOver := fun entry : Held K V => decide (entry.expectedExpiration ≤ s.now)
  { s with
    entries := s.entries.dropWhile isOver
    leftover := s.leave (s.entries.takeWhile isOver)
    fired := s.fired ++ (s.entries.takeWhile isOver).map s.firing }.scheduleFirst

omit [DecidableEq V] in
/-- The call of the listener with which a task begins, if its entry says that it is scheduled. -/
def ownFiring (s : State K V) (task : Task K) (collected : Bool) : Option (Firing K) :=
  match s.entries.find? fun entry => entry.id = task.id with
  | some entry => if entry.scheduled then some (s.firing entry) else none
  | none =>
      if !collected && decide (task.id ∈ s.leftover) then
        some ⟨task.id, task.key, task.due, s.now⟩
      else none

omit [DecidableEq V] in
/-- `entries.remove(entry.key)`, whatever entry is there. -/
def takeOut (s : State K V) (key : K) : State K V :=
  { s with
    entries := s.others key
    leftover := s.leave (s.getEntry key).toList }

omit [DecidableEq V] in
/-- The body of a task. -/
def runTask (s : State K V) (task : Task K) (collected : Bool) : State K V :=
  match s.ownFiring task collected with
  | some firing => { s.takeOut firing.key with fired := s.fired ++ [firing] }.expire
  | none => s.expire

def step (s : State K V) : Action K V → Option (State K V)
  | .put key value => some (s.put key value)
  | .remove key => some (s.remove key)
  | .clear => some s.clear
  | .tick nanos => some { s with now := s.now + nanos }
  | .start task =>
      if s.started = none ∧ task ∈ s.tasks ∧ task.due ≤ s.now then
        some { s with tasks := s.tasks.erase task, started := some task }
      else none
  | .run collected =>
      s.started.map fun task => { s with started := none }.runTask task collected

omit [DecidableEq K] [DecidableEq V] in
/-- An empty map. -/
def empty (maxSize expirationNanos now : ℤ) : State K V :=
  ⟨maxSize, expirationNanos, now, 0, [], [], none, [], [], []⟩

/-! ### The first entry is scheduled -/

variable {s : State K V} {key : K} {entry : Held K V}

omit [DecidableEq K] [DecidableEq V] in
/-- The task of an entry as it is scheduled. -/
def taskOf (entry : Held K V) : Task K := ⟨entry.id, entry.key, entry.expectedExpiration⟩

omit [DecidableEq K] [DecidableEq V] in
/-- The order of the entries, and the tasks of those that are scheduled. -/
structure Ordered (s : State K V) : Prop where
  keys : (s.entries.map fun entry => entry.key).Nodup
  ids : (s.entries.map Held.id).Nodup
  created : ∀ entry ∈ s.entries, entry.id < s.created
  sorted : s.entries.Pairwise fun first later =>
    first.expectedExpiration ≤ later.expectedExpiration
  bound : ∀ entry ∈ s.entries, entry.expectedExpiration ≤ s.expirationNanos + s.now
  task : ∀ entry ∈ s.entries, entry.scheduled = true →
    taskOf entry ∈ s.tasks ∨ s.started = some (taskOf entry)

omit [DecidableEq K] [DecidableEq V] in
structure Inv (s : State K V) : Prop extends Ordered s where
  armed : ∀ entry ∈ s.entries.head?, entry.scheduled = true

section

omit [DecidableEq K] [DecidableEq V]

/-- Some entries are taken out of the map. -/
lemma Ordered.sublist (h : s.Ordered) {entries : List (Held K V)} (hsub : entries <+ s.entries)
    {tasks : List (Task K)} {started : Option (Task K)} {leftover removed : List ℕ}
    {fired : List (Firing K)}
    (htask : ∀ entry ∈ entries, entry.scheduled = true →
      taskOf entry ∈ tasks ∨ started = some (taskOf entry)) :
    Ordered { s with entries, tasks, started, leftover, fired, removed } where
  keys := h.keys.sublist (hsub.map _)
  ids := h.ids.sublist (hsub.map _)
  created := fun entry hentry => h.created entry (hsub.subset hentry)
  sorted := h.sorted.sublist hsub
  bound := fun entry hentry => h.bound entry (hsub.subset hentry)
  task := htask

/-- `scheduleFirst` changes at most the flag of the first entry. -/
lemma Ordered.scheduleFirst (h : s.Ordered) : s.scheduleFirst.Inv := by
  simp only [State.scheduleFirst]
  split
  · rename_i hentries
    exact ⟨h, by simp [hentries]⟩
  · rename_i first rest hentries
    split_ifs with hscheduled
    · refine ⟨h, fun entry hentry => ?_⟩
      rw [hentries] at hentry
      obtain rfl := Option.some.inj hentry
      exact hscheduled
    · have hkeys := h.keys
      have hids := h.ids
      have hcreated := h.created
      have hsorted := h.sorted
      have hbound := h.bound
      rw [hentries] at hkeys hids hcreated hsorted hbound
      rw [forall_mem_cons] at hcreated hbound
      rw [pairwise_cons] at hsorted
      refine ⟨⟨hkeys, hids, ?_, ?_, ?_, fun entry hentry hflag => ?_⟩, fun entry hentry => ?_⟩
      · exact forall_mem_cons.2 hcreated
      · exact pairwise_cons.2 hsorted
      · exact forall_mem_cons.2 hbound
      · rcases mem_cons.1 hentry with rfl | hrest
        · exact Or.inl (mem_append_right _ (mem_singleton_self _))
        · refine (h.task entry ?_ hflag).imp_left (mem_append_left _)
          rw [hentries]
          exact mem_cons_of_mem _ hrest
      · obtain rfl := Option.some.inj hentry
        rfl

/-- The loop leaves the entries whose time is not over, and schedules the first of them. -/
lemma Ordered.expire (h : s.Ordered) : s.expire.Inv :=
  (h.sublist (dropWhile_sublist _) fun entry hentry =>
    h.task entry ((dropWhile_sublist _).subset hentry)).scheduleFirst

/-- A new entry comes last, as its time is over last. -/
lemma Ordered.append (h : s.Ordered) (entry : Held K V) {created : ℕ} (hle : s.created ≤ created)
    (hkey : ∀ other ∈ s.entries, other.key ≠ entry.key)
    (hid : ∀ other ∈ s.entries, other.id ≠ entry.id) (hlt : entry.id < created)
    (htime : entry.expectedExpiration = s.expirationNanos + s.now)
    (hflag : entry.scheduled = false) :
    Ordered { s with entries := s.entries ++ [entry], created } where
  keys := by
    rw [map_append]
    refine nodup_append.2 ⟨h.keys, nodup_singleton _, fun key hkey' key' hmem heq => ?_⟩
    obtain ⟨other, hother, rfl⟩ := mem_map.1 hkey'
    exact hkey other hother (heq.trans (mem_singleton.1 hmem))
  ids := by
    rw [map_append]
    refine nodup_append.2 ⟨h.ids, nodup_singleton _, fun id hid' id' hmem heq => ?_⟩
    obtain ⟨other, hother, rfl⟩ := mem_map.1 hid'
    exact hid other hother (heq.trans (mem_singleton.1 hmem))
  created := by
    intro other hother
    rcases mem_append.1 hother with hold | hnew
    · exact Nat.lt_of_lt_of_le (h.created other hold) hle
    · obtain rfl := mem_singleton.1 hnew
      exact hlt
  sorted := by
    refine pairwise_append.2 ⟨h.sorted, pairwise_singleton _ _, fun other hother last hlast => ?_⟩
    obtain rfl := mem_singleton.1 hlast
    rw [htime]
    exact h.bound other hother
  bound := by
    intro other hother
    rcases mem_append.1 hother with hold | hnew
    · exact h.bound other hold
    · obtain rfl := mem_singleton.1 hnew
      exact Int.le_of_eq htime
  task := by
    intro other hother hscheduled
    rcases mem_append.1 hother with hold | hnew
    · exact h.task other hold hscheduled
    · obtain rfl := mem_singleton.1 hnew
      rw [hflag] at hscheduled
      cases hscheduled

end

omit [DecidableEq V] in
lemma getEntry_eq_some (h : s.getEntry key = some entry) : entry ∈ s.entries ∧ entry.key = key :=
  ⟨mem_of_find?_eq_some h, by simpa using find?_some h⟩

omit [DecidableEq V] in
lemma getEntry_eq_none (h : s.getEntry key = none) : ∀ entry ∈ s.entries, entry.key ≠ key := by
  simpa [getEntry] using h

omit [DecidableEq V] in
lemma mem_others {other : Held K V} :
    other ∈ s.others key ↔ other ∈ s.entries ∧ other.key ≠ key := by
  simp [others]

omit [DecidableEq V] in
/-- Another entry has another number. -/
lemma Ordered.id_ne (h : s.Ordered) (hentry : entry ∈ s.entries) {other : Held K V}
    (hother : other ∈ s.others entry.key) : other.id ≠ entry.id := by
  obtain ⟨hmem, hne⟩ := mem_others.1 hother
  intro heq
  obtain rfl := inj_on_of_nodup_map h.ids hmem hentry heq
  exact hne rfl

omit [DecidableEq V] in
/-- The entries under other keys, when the one under the key is cancelled. -/
lemma Ordered.others (h : s.Ordered) (hget : s.getEntry key = some entry) (removed : List ℕ) :
    Ordered { s with
      entries := s.others key
      tasks := s.tasks.filter fun task => task.id ≠ entry.id
      removed } := by
  refine h.sublist filter_sublist fun other hother hscheduled => ?_
  obtain ⟨hentry, rfl⟩ := getEntry_eq_some hget
  have hid := h.id_ne hentry hother
  refine (h.task other (mem_others.1 hother).1 hscheduled).imp_left fun htask => ?_
  exact mem_filter.2 ⟨htask, decide_eq_true hid⟩

omit [DecidableEq V] in
/-- An entry that is not scheduled is not the first one. -/
lemma Inv.head_others (h : s.Inv) (hget : s.getEntry key = some entry)
    (hscheduled : entry.scheduled = false) :
    ∃ first rest, first.scheduled = true ∧ s.others key = first :: rest := by
  obtain ⟨hentry, hkey⟩ := getEntry_eq_some hget
  have harmed := h.armed
  have hget' := hget
  simp only [getEntry] at hget'
  cases hentries : s.entries with
  | nil =>
      rw [hentries] at hentry
      cases hentry
  | cons first rest =>
      rw [hentries] at harmed hget'
      have hfirst := harmed first rfl
      have hne : first.key ≠ key := by
        intro heq
        rw [find?_cons_of_pos (by simpa using heq)] at hget'
        obtain rfl := Option.some.inj hget'
        rw [hfirst] at hscheduled
        cases hscheduled
      refine ⟨first, rest.filter fun entry => entry.key ≠ key, hfirst, ?_⟩
      simp only [State.others]
      rw [hentries]
      exact filter_cons_of_pos (by simpa using hne)

omit [DecidableEq K] [DecidableEq V] in
/-- The entry is cancelled, and the entries begin with the others. -/
lemma Ordered.cancelled {s' : State K V} (hs' : Ordered { s' with
      tasks := s'.tasks.filter fun task => task.id ≠ entry.id })
    (hhead : entry.scheduled = false →
      ∃ first rest, first.scheduled = true ∧ s'.entries = first :: rest) :
    (s'.cancelled entry).Inv := by
  simp only [State.cancelled]
  split_ifs with hscheduled
  · exact hs'.scheduleFirst
  · obtain ⟨first, rest, hfirst, hentries⟩ := hhead (Bool.eq_false_iff.2 hscheduled)
    refine ⟨hs', fun head hhead => ?_⟩
    change head ∈ s'.entries.head? at hhead
    rw [hentries] at hhead
    obtain rfl := Option.some.inj hhead
    exact hfirst

omit [DecidableEq V] in
lemma Inv.remove (h : s.Inv) (key : K) : (s.remove key).Inv := by
  simp only [State.remove]
  cases hget : s.getEntry key with
  | none => exact h
  | some entry =>
      exact Ordered.cancelled (h.toOrdered.others hget _) fun hscheduled =>
        h.head_others hget hscheduled

lemma Inv.put (h : s.Inv) (key : K) (value : V) : (s.put key value).Inv := by
  simp only [State.put]
  cases hget : s.getEntry key with
  | none =>
      dsimp only
      split_ifs with hfull hone
      · exact h
      · refine (h.toOrdered.append _ (Nat.le_succ _) (getEntry_eq_none hget)
          (fun other hother => ?_) (Nat.lt_succ_self _) rfl rfl).scheduleFirst
        exact Nat.ne_of_lt (h.created other hother)
      · have happend := h.toOrdered.append
          ⟨⟨key, value, s.expirationNanos + s.now, false⟩, s.created⟩ (Nat.le_succ _)
          (getEntry_eq_none hget) (fun other hother => Nat.ne_of_lt (h.created other hother))
          (Nat.lt_succ_self _) rfl rfl
        refine ⟨happend, fun first hfirst => h.armed first ?_⟩
        cases hentries : s.entries with
        | nil => simp [hentries] at hone
        | cons head rest =>
            simp only [hentries, cons_append, head?_cons] at hfirst ⊢
            exact hfirst
  | some entry =>
      dsimp only
      split_ifs with hvalue
      · exact h
      · obtain ⟨hentry, rfl⟩ := getEntry_eq_some hget
        have happend := (h.toOrdered.others hget s.removed).append
          ⟨⟨entry.key, value, s.expirationNanos + s.now, false⟩, entry.id⟩ (Nat.le_refl _)
          (fun other hother => (mem_others.1 hother).2) (fun other hother => h.id_ne hentry hother)
          (h.created entry hentry) rfl rfl
        refine Ordered.cancelled happend fun hscheduled => ?_
        obtain ⟨first, rest, hfirst, heq⟩ := h.head_others hget hscheduled
        exact ⟨first, rest ++ _, hfirst, by rw [heq]; rfl⟩

omit [DecidableEq K] [DecidableEq V] in
lemma Inv.clear (h : s.Inv) : s.clear.Inv := by
  refine ⟨h.toOrdered.sublist (nil_sublist _) (fun entry hentry => ?_), fun entry hentry => ?_⟩
  · cases hentry
  · cases hentry

omit [DecidableEq K] [DecidableEq V] in
/-- A task is over, and its entry is not in the map any more or not scheduled. -/
lemma Ordered.finish (h : s.Ordered) {task : Task K} (hstarted : s.started = some task)
    {entries : List (Held K V)} (hsub : entries <+ s.entries) {leftover : List ℕ}
    {fired : List (Firing K)}
    (hnot : ∀ entry ∈ entries, entry.id = task.id → entry.scheduled = false) :
    Ordered { s with entries, started := none, leftover, fired } := by
  refine h.sublist hsub fun entry hentry hscheduled => ?_
  refine (h.task entry (hsub.subset hentry) hscheduled).imp_right fun hself => ?_
  rw [hstarted] at hself
  have hid : task.id = entry.id := congrArg Task.id (Option.some.inj hself)
  rw [hnot entry hentry hid.symm] at hscheduled
  cases hscheduled

omit [DecidableEq V] in
lemma Inv.runTask (h : s.Inv) {task : Task K} (hstarted : s.started = some task)
    (collected : Bool) : ({ s with started := none }.runTask task collected).Inv := by
  simp only [State.runTask, ownFiring]
  cases hfind : s.entries.find? fun entry => entry.id = task.id with
  | none =>
      have hnot : ∀ entry ∈ s.entries, entry.id = task.id → entry.scheduled = false := by
        intro entry hentry hid
        simp only [find?_eq_none, decide_eq_true_eq] at hfind
        exact absurd hid (hfind entry hentry)
      dsimp only
      split_ifs
      · exact (h.finish hstarted filter_sublist fun entry hentry =>
          hnot entry (filter_sublist.subset hentry)).expire
      · exact (h.finish hstarted (Sublist.refl _) hnot).expire
  | some entry =>
      have hentry := mem_of_find?_eq_some hfind
      have hid : entry.id = task.id := by simpa using find?_some hfind
      dsimp only
      split_ifs with hscheduled
      · refine (h.finish hstarted filter_sublist fun other hother heq => ?_).expire
        exact absurd (heq.trans hid.symm) (h.id_ne hentry hother)
      · refine (h.finish hstarted (Sublist.refl _) fun other hother heq => ?_).expire
        obtain rfl := inj_on_of_nodup_map h.ids hother hentry (heq.trans hid.symm)
        exact Bool.eq_false_iff.2 hscheduled

lemma Inv.step (h : s.Inv) {action : Action K V} {s' : State K V}
    (hstep : s.step action = some s') : s'.Inv := by
  cases action with
  | put key value =>
      obtain rfl := Option.some.inj hstep
      exact h.put key value
  | remove key =>
      obtain rfl := Option.some.inj hstep
      exact h.remove key
  | clear =>
      obtain rfl := Option.some.inj hstep
      exact h.clear
  | tick nanos =>
      obtain rfl := Option.some.inj hstep
      refine ⟨⟨h.keys, h.ids, h.created, h.sorted, fun entry hentry => ?_, h.task⟩, h.armed⟩
      have hbound := h.bound entry hentry
      show entry.expectedExpiration ≤ s.expirationNanos + (s.now + nanos)
      omega
  | start task =>
      simp only [State.step] at hstep
      split_ifs at hstep with hcond
      obtain rfl := Option.some.inj hstep
      obtain ⟨hnone, hmem, -⟩ := hcond
      refine ⟨⟨h.keys, h.ids, h.created, h.sorted, h.bound, fun entry hentry hscheduled => ?_⟩,
        h.armed⟩
      -- the entry of the task relies on it from now on
      have htask := (h.task entry hentry hscheduled).resolve_right (by simp [hnone])
      by_cases heq : taskOf entry = task
      · exact Or.inr (congrArg some heq.symm)
      · exact Or.inl ((mem_erase_of_ne heq).2 htask)
  | run collected =>
      obtain ⟨task, hstarted, rfl⟩ := Option.map_eq_some_iff.1 hstep
      exact h.runTask hstarted collected

omit [DecidableEq K] [DecidableEq V] in
lemma inv_empty (maxSize expirationNanos now : ℤ) :
    (empty maxSize expirationNanos now : State K V).Inv := by
  refine ⟨⟨nodup_nil, nodup_nil, ?_, Pairwise.nil, ?_, ?_⟩, ?_⟩ <;> simp [empty]

omit [DecidableEq K] [DecidableEq V] in
/-- If no task has begun and none can, no entry is overdue. -/
lemma Inv.now_lt (h : s.Inv) (hstarted : s.started = none)
    (htasks : ∀ task ∈ s.tasks, s.now < task.due) :
    ∀ entry ∈ s.entries, s.now < entry.expectedExpiration := by
  have harmed := h.armed
  have hsorted := h.sorted
  have htask := h.task
  cases hentries : s.entries with
  | nil => simp
  | cons first rest =>
      rw [hentries] at harmed hsorted htask
      have hfirst :=
        (htask first mem_cons_self (harmed first rfl)).resolve_right (by simp [hstarted])
      have hlt : s.now < first.expectedExpiration := htasks _ hfirst
      refine forall_mem_cons.2 ⟨hlt, fun entry hentry => ?_⟩
      exact Int.lt_of_lt_of_le hlt ((pairwise_cons.1 hsorted).1 entry hentry)

/-! ### No turn between the begin of a task and its lock -/

omit [DecidableEq K] [DecidableEq V] in
/-- Only the task itself and the clock go on when a task has begun. -/
def Prompt (s : State K V) : Action K V → Prop
  | .put _ _ | .remove _ | .clear | .start _ => s.started = none
  | .tick _ | .run _ => True

omit [DecidableEq K] [DecidableEq V] in
/-- How often a number stands for an entry of the map, of a call of the listener or of a removal. -/
def places (s : State K V) (id : ℕ) : ℕ :=
  (s.entries.map Held.id).count id + (s.fired.map Firing.id).count id + s.removed.count id

omit [DecidableEq K] [DecidableEq V] in
/-- There is one task, that of the first entry, which alone is scheduled; and every entry there has
been has one place. -/
structure Exact (s : State K V) : Prop extends Inv s where
  single : s.tasks ++ s.started.toList = (s.entries.head?.map taskOf).toList
  unscheduled : ∀ entry ∈ s.entries.tail, entry.scheduled = false
  begun : ∀ task ∈ s.started, task.due ≤ s.now
  once : ∀ id, s.places id = if id < s.created then 1 else 0
  inTime : ∀ firing ∈ s.fired, firing.expectedExpiration ≤ firing.time

section

omit [DecidableEq K] [DecidableEq V]

@[simp] lemma map_id_scheduleFirst (s : State K V) :
    s.scheduleFirst.entries.map Held.id = s.entries.map Held.id := by
  simp only [State.scheduleFirst]
  split
  · rfl
  · rename_i hentries
    split_ifs
    · rfl
    · rw [hentries]
      rfl

/-- The rest of a state is not changed by `scheduleFirst`. -/
lemma scheduleFirst_rest (s : State K V) :
    s.scheduleFirst.started = s.started ∧ s.scheduleFirst.fired = s.fired ∧
      s.scheduleFirst.removed = s.removed ∧ s.scheduleFirst.created = s.created ∧
      s.scheduleFirst.now = s.now := by
  simp only [State.scheduleFirst]
  split
  · exact ⟨rfl, rfl, rfl, rfl, rfl⟩
  · split_ifs <;> exact ⟨rfl, rfl, rfl, rfl, rfl⟩

/-- Without tasks, the first of the entries gets one. -/
lemma Ordered.exact_scheduleFirst (h : s.Ordered) (htasks : s.tasks = [])
    (hstarted : s.started = none) (hnone : ∀ entry ∈ s.entries, entry.scheduled = false)
    (honce : ∀ id, s.places id = if id < s.created then 1 else 0)
    (hfired : ∀ firing ∈ s.fired, firing.expectedExpiration ≤ firing.time) :
    s.scheduleFirst.Exact := by
  obtain ⟨hst, hfi, hre, hcr, hno⟩ := s.scheduleFirst_rest
  refine ⟨h.scheduleFirst, ?_, ?_, ?_, fun id => ?_, ?_⟩
  · rw [hst, hstarted]
    simp only [State.scheduleFirst]
    split
    · rename_i hentries
      simp [htasks, hentries]
    · rename_i first rest hentries
      rw [if_neg (by simp [hnone first (by simp [hentries])])]
      simp [htasks, taskOf]
  · simp only [State.scheduleFirst]
    split
    · exact fun entry hentry => hnone entry (mem_of_mem_tail hentry)
    · rename_i first rest hentries
      rw [if_neg (by simp [hnone first (by simp [hentries])])]
      exact fun entry hentry => hnone entry (by simp [hentries, show entry ∈ rest from hentry])
  · rw [hst, hstarted]
    simp
  · rw [places, map_id_scheduleFirst, hfi, hre, hcr]
    exact honce id
  · rw [hfi]
    exact hfired

end

omit [DecidableEq V] in
/-- The entry under a key and the others are the entries. -/
lemma Ordered.count_others (h : s.Ordered) (hget : s.getEntry key = some entry) (id : ℕ) :
    (s.entries.map Held.id).count id =
      (if entry.id = id then 1 else 0) + ((s.others key).map Held.id).count id := by
  obtain ⟨hentry, rfl⟩ := getEntry_eq_some hget
  have hperm : s.entries.map Held.id ~ (entry :: s.others entry.key).map Held.id := by
    refine (perm_ext_iff_of_nodup h.ids ?_).2 fun id => ?_
    · refine nodup_cons.2 ⟨fun hmem => ?_, h.ids.sublist (filter_sublist.map _)⟩
      obtain ⟨other, hother, heq⟩ := mem_map.1 hmem
      exact h.id_ne hentry hother heq
    · simp only [mem_map, mem_cons]
      constructor
      · rintro ⟨other, hother, rfl⟩
        by_cases heq : other.key = entry.key
        · exact ⟨other, Or.inl (inj_on_of_nodup_map h.keys hother hentry heq), rfl⟩
        · exact ⟨other, Or.inr (mem_others.2 ⟨hother, heq⟩), rfl⟩
      · rintro ⟨other, rfl | hother, rfl⟩
        · exact ⟨other, hentry, rfl⟩
        · exact ⟨other, (mem_others.1 hother).1, rfl⟩
  rw [hperm.count_eq, map_cons, count_cons, Nat.add_comm]
  simp only [beq_iff_eq]

omit [DecidableEq V] in
/-- The task of the entry goes with it, and the next entry gets one. -/
lemma Exact.cancelled (h : s.Exact) (hstarted : s.started = none)
    (hget : s.getEntry key = some entry) (extra : List (Held K V)) (removed : List ℕ)
    (hextra : ∀ other ∈ extra, other.scheduled = false)
    (hordered : Ordered { s with
      entries := s.others key ++ extra
      tasks := s.tasks.filter fun task => task.id ≠ entry.id
      removed })
    (honce : ∀ id, places { s with entries := s.others key ++ extra, removed } id =
      if id < s.created then 1 else 0) :
    ({ s with entries := s.others key ++ extra, removed }.cancelled entry).Exact := by
  obtain ⟨hentry, rfl⟩ := getEntry_eq_some hget
  have hsingle := h.single
  have hun := h.unscheduled
  have harmed := h.armed
  have hids := h.ids
  cases hentries : s.entries with
  | nil =>
      rw [hentries] at hentry
      cases hentry
  | cons first rest =>
      rw [hentries] at hsingle hun harmed hids hentry
      have hfirst := harmed first rfl
      have htasks : s.tasks = [taskOf first] := by simpa [hstarted] using hsingle
      simp only [State.cancelled]
      rcases mem_cons.1 hentry with rfl | hrest
      · -- the first entry, whose task is the only one
        rw [if_pos hfirst]
        have hempty : (s.tasks.filter fun task => task.id ≠ entry.id) = [] := by
          rw [htasks]
          simp [taskOf]
        refine hordered.exact_scheduleFirst hempty hstarted (fun other hother => ?_) honce h.inTime
        rcases mem_append.1 hother with hold | hnew
        · obtain ⟨hmem, hne⟩ := mem_others.1 hold
          rw [hentries] at hmem
          refine hun other ((mem_cons.1 hmem).resolve_left ?_)
          rintro rfl
          exact hne rfl
        · exact hextra other hnew
      · have hnot : entry.scheduled = false := hun entry hrest
        have hid : first.id ≠ entry.id := by
          intro heq
          exact (nodup_cons.1 hids).1 (heq ▸ mem_map_of_mem hrest)
        have hkey : first.key ≠ entry.key := by
          intro heq
          have hkeys := h.keys
          rw [hentries] at hkeys
          have hmem : entry.key ∈ rest.map fun other => other.key := mem_map_of_mem hrest
          exact (nodup_cons.1 hkeys).1 (show first.key ∈ _ from heq.symm ▸ hmem)
        have hothers :
            s.others entry.key = first :: rest.filter fun other => other.key ≠ entry.key := by
          simp only [State.others]
          rw [hentries]
          exact filter_cons_of_pos (by simpa using hkey)
        rw [if_neg (by simp [hnot])]
        refine ⟨⟨hordered, ?_⟩, ?_, ?_, ?_, honce, h.inTime⟩
        · rw [hothers]
          rintro other hother
          obtain rfl := Option.some.inj hother
          exact hfirst
        · rw [hothers, htasks, hstarted]
          simp [taskOf, hid]
        · rw [hothers]
          intro other hother
          rcases mem_append.1 hother with hold | hnew
          · exact hun other (mem_filter.1 hold).1
          · exact hextra other hnew
        · rw [hstarted]
          simp

omit [DecidableEq V] in
lemma Exact.remove (h : s.Exact) (hstarted : s.started = none) (key : K) :
    (s.remove key).Exact := by
  simp only [State.remove]
  cases hget : s.getEntry key with
  | none => exact h
  | some entry =>
      have hcancelled := h.cancelled hstarted hget [] (s.removed ++ [entry.id]) (by simp)
        (by simpa using h.toOrdered.others hget (s.removed ++ [entry.id])) fun id => ?_
      · simpa using hcancelled
      · have honce := h.once id
        simp only [places, h.count_others hget id] at honce
        simp only [places, append_nil, count_append, count_singleton, beq_iff_eq]
        omega

lemma Exact.put (h : s.Exact) (hstarted : s.started = none) (key : K) (value : V) :
    (s.put key value).Exact := by
  simp only [State.put]
  cases hget : s.getEntry key with
  | none =>
      dsimp only
      split_ifs with hfull hone
      · exact h
      all_goals
        have happend := h.toOrdered.append
          ⟨⟨key, value, s.expirationNanos + s.now, false⟩, s.created⟩ (Nat.le_succ _)
          (getEntry_eq_none hget) (fun other hother => Nat.ne_of_lt (h.created other hother))
          (Nat.lt_succ_self _) rfl rfl
        have honce : ∀ id, (s.entries.map Held.id ++ [s.created]).count id +
            (s.fired.map Firing.id).count id + s.removed.count id =
              if id < s.created + 1 then 1 else 0 := by
          intro id
          have honce := h.once id
          simp only [places] at honce
          simp only [count_append, count_singleton, beq_iff_eq]
          split_ifs at honce ⊢ <;> omega
        have honce' : ∀ id, places { s with
            entries := s.entries ++
              [⟨⟨key, value, s.expirationNanos + s.now, false⟩, s.created⟩]
            created := s.created + 1 } id = if id < s.created + 1 then 1 else 0 := by
          intro id
          simp only [places, map_append]
          exact honce id
      · have hnil : s.entries = [] := by simpa using hone
        have htasks : s.tasks = [] := by simpa [hnil] using (append_eq_nil_iff.1 (h.single.trans
          (by simp [hnil]))).1
        refine happend.exact_scheduleFirst htasks hstarted (fun other hother => ?_) honce' h.inTime
        obtain rfl := mem_singleton.1 (by simpa [hnil] using hother)
        rfl
      · cases hentries : s.entries with
        | nil => simp [hentries] at hone
        | cons first rest =>
            have hsingle := h.single
            have hun := h.unscheduled
            have harmed := h.armed
            simp only [hentries] at happend honce' hsingle hun harmed ⊢
            refine ⟨⟨happend, fun other hother => harmed other hother⟩, hsingle, ?_, h.begun,
              honce', h.inTime⟩
            intro other hother
            rcases mem_append.1 hother with hold | hnew
            · exact hun other hold
            · obtain rfl := mem_singleton.1 hnew
              rfl
  | some entry =>
      dsimp only
      split_ifs with hvalue
      · exact h
      · obtain ⟨hentry, rfl⟩ := getEntry_eq_some hget
        have happend := (h.toOrdered.others hget s.removed).append
          ⟨⟨entry.key, value, s.expirationNanos + s.now, false⟩, entry.id⟩ (Nat.le_refl _)
          (fun other hother => (mem_others.1 hother).2) (fun other hother => h.id_ne hentry hother)
          (h.created entry hentry) rfl rfl
        refine h.cancelled hstarted hget _ _ (by simp) happend fun id => ?_
        have honce := h.once id
        simp only [places, h.count_others hget id] at honce
        simp only [places, map_append, count_append, map_cons, map_nil, count_singleton, beq_iff_eq]
        omega

omit [DecidableEq K] [DecidableEq V] in
lemma Exact.clear (h : s.Exact) (hstarted : s.started = none) : s.clear.Exact := by
  refine ⟨h.toInv.clear, ?_, ?_, h.begun, fun id => ?_, h.inTime⟩
  · have hsingle := h.single
    rw [hstarted] at hsingle
    simp only [State.clear, hstarted]
    cases hentries : s.entries with
    | nil => simp_all
    | cons first rest => simp_all [taskOf]
  · simp [State.clear]
  · have honce := h.once id
    simp only [places] at honce
    simp only [places, State.clear, map_nil, count_nil, count_append]
    change _ = if id < s.created then 1 else 0
    omega

omit [DecidableEq K] [DecidableEq V] in
/-- The loop of a task, when no entry is scheduled. -/
lemma Ordered.exact_expire (h : s.Ordered) (htasks : s.tasks = []) (hstarted : s.started = none)
    (hnone : ∀ entry ∈ s.entries, entry.scheduled = false)
    (honce : ∀ id, s.places id = if id < s.created then 1 else 0)
    (hfired : ∀ firing ∈ s.fired, firing.expectedExpiration ≤ firing.time) : s.expire.Exact := by
  refine (h.sublist (dropWhile_sublist _) fun entry hentry =>
    h.task entry ((dropWhile_sublist _).subset hentry)).exact_scheduleFirst htasks hstarted
    (fun entry hentry => hnone entry ((dropWhile_sublist _).subset hentry)) (fun id => ?_)
    fun firing hfiring => ?_
  · have hsplit := congrArg (fun l => (l.map Held.id).count id) (takeWhile_append_dropWhile
      (p := fun entry : Held K V => decide (entry.expectedExpiration ≤ s.now)) (l := s.entries))
    have hids : ∀ l : List (Held K V), (l.map s.firing).map Firing.id = l.map Held.id := by
      intro l
      rw [map_map]
      rfl
    have honce := honce id
    simp only [places] at honce
    simp only [map_append, count_append] at hsplit
    simp only [places, map_append, count_append, hids]
    omega
  · rcases mem_append.1 hfiring with hold | hnew
    · exact hfired firing hold
    · obtain ⟨entry, hentry, rfl⟩ := mem_map.1 hnew
      have hover := mem_takeWhile_imp hentry
      show entry.expectedExpiration ≤ s.now
      exact of_decide_eq_true hover

omit [DecidableEq V] in
/-- The task that has begun is that of the first entry, and it takes this entry out and goes on with
the rest. -/
lemma Exact.runTask_eq (h : s.Exact) {task : Task K} (hstarted : s.started = some task)
    (collected : Bool) :
    ∃ first rest, s.entries = first :: rest ∧ first.scheduled = true ∧ task = taskOf first ∧
      s.tasks = [] ∧ s.others first.key = rest ∧
      { s with started := none }.runTask task collected = State.expire { s with
        entries := rest
        started := none
        leftover := s.leave (s.getEntry first.key).toList
        fired := s.fired ++ [s.firing first] } := by
  have hsingle := h.single
  have harmed := h.armed
  have hkeys := h.keys
  rw [hstarted] at hsingle
  obtain ⟨entries, hentries⟩ : ∃ entries, s.entries = entries := ⟨_, rfl⟩
  rw [hentries] at hsingle harmed hkeys
  cases entries with
  | nil => simp at hsingle
  | cons first rest =>
      have hfirst := harmed first rfl
      obtain ⟨htasks, rfl⟩ : s.tasks = [] ∧ task = taskOf first := by
        simpa [append_eq_singleton_iff] using hsingle
      have hown : ownFiring { s with started := none } (taskOf first) collected =
          some (s.firing first) := by
        simp only [ownFiring]
        rw [hentries, find?_cons_of_pos (by simp [taskOf])]
        exact if_pos hfirst
      have hothers : s.others first.key = rest := by
        simp only [State.others]
        rw [hentries, filter_cons_of_neg (by simp)]
        refine filter_eq_self.2 fun other hother => decide_eq_true fun heq => ?_
        exact (nodup_cons.1 hkeys).1 (mem_map.2 ⟨other, hother, heq⟩)
      refine ⟨first, rest, hentries, hfirst, rfl, htasks, hothers, ?_⟩
      rw [State.runTask, hown, ← hothers]
      rfl

omit [DecidableEq V] in
lemma Exact.runTask (h : s.Exact) {task : Task K} (hstarted : s.started = some task)
    (collected : Bool) : ({ s with started := none }.runTask task collected).Exact := by
  obtain ⟨first, rest, hentries, -, rfl, htasks, -, heq⟩ := h.runTask_eq hstarted collected
  have hun := h.unscheduled
  have hsub : rest <+ s.entries := hentries ▸ sublist_cons_self first rest
  rw [hentries] at hun
  rw [heq]
  refine (h.toOrdered.finish hstarted hsub fun other hother _ => hun other hother).exact_expire
    htasks rfl hun (fun id => ?_) fun firing hfiring => ?_
  · have honce := h.once id
    simp only [places, hentries, map_cons, count_cons, beq_iff_eq] at honce
    simp only [places, map_append, count_append, map_cons, map_nil, count_singleton, beq_iff_eq,
      firing]
    omega
  · rcases mem_append.1 hfiring with hold | hnew
    · exact h.inTime firing hold
    · obtain rfl := mem_singleton.1 hnew
      exact h.begun _ hstarted

lemma Exact.step (h : s.Exact) {action : Action K V} {s' : State K V} (hprompt : s.Prompt action)
    (hstep : s.step action = some s') : s'.Exact := by
  cases action with
  | put key value =>
      obtain rfl := Option.some.inj hstep
      exact h.put hprompt key value
  | remove key =>
      obtain rfl := Option.some.inj hstep
      exact h.remove hprompt key
  | clear =>
      obtain rfl := Option.some.inj hstep
      exact h.clear hprompt
  | tick nanos =>
      have hinv := h.toInv.step hstep
      obtain rfl := Option.some.inj hstep
      refine ⟨hinv, h.single, h.unscheduled, fun task htask => ?_, h.once, h.inTime⟩
      have hbegun := h.begun task htask
      show task.due ≤ s.now + nanos
      omega
  | start task =>
      have hinv := h.toInv.step hstep
      simp only [State.step] at hstep
      split_ifs at hstep with hcond
      obtain rfl := Option.some.inj hstep
      obtain ⟨hnone, hmem, hdue⟩ := hcond
      have hsingle := h.single
      rw [hnone] at hsingle
      refine ⟨hinv, ?_, h.unscheduled, fun other hother => ?_, h.once, h.inTime⟩
      · obtain ⟨first, hfirst⟩ : ∃ first, s.tasks = [first] := by
          cases hhead : s.entries.head? with
          | none => simp_all
          | some first => exact ⟨taskOf first, by simpa [hhead] using hsingle⟩
        rw [hfirst] at hmem
        obtain rfl := mem_singleton.1 hmem
        show s.tasks.erase task ++ [task] = _
        rw [← hsingle, hfirst]
        simp
      · obtain rfl := Option.some.inj hother
        exact hdue
  | run collected =>
      obtain ⟨task, hstarted, rfl⟩ := Option.map_eq_some_iff.1 hstep
      exact h.runTask hstarted collected

omit [DecidableEq K] [DecidableEq V] in
lemma exact_empty (maxSize expirationNanos now : ℤ) :
    (empty maxSize expirationNanos now : State K V).Exact := by
  refine ⟨inv_empty maxSize expirationNanos now, ?_, ?_, ?_, ?_, ?_⟩ <;> simp [empty, places]

/-! ### The map without the expirer -/

omit [DecidableEq K] [DecidableEq V] in
/-- The map has the entries of the state. -/
structure Shows (s : State K V) (m : ExpiringMap K V) : Prop where
  maxSize : m.maxSize = s.maxSize
  expirationNanos : m.expirationNanos = s.expirationNanos
  policy : m.expirationPolicy = .created
  entries : m.entries = s.entries.map Held.toExpiringEntry

variable {m : ExpiringMap K V}

section

omit [DecidableEq V]

omit [DecidableEq K] in
lemma map_scheduleFirst (s : State K V) :
    s.scheduleFirst.entries.map Held.toExpiringEntry =
      ExpiringEntry.scheduleFirst (s.entries.map Held.toExpiringEntry) := by
  simp only [State.scheduleFirst]
  split
  · rename_i hentries
    rw [hentries]
    rfl
  · rename_i first rest hentries
    split_ifs with hscheduled
    · rw [hentries]
      simp only [map_cons, ExpiringEntry.scheduleFirst, ← hscheduled]
    · rw [hentries]
      rfl

omit [DecidableEq K] in
lemma Shows.scheduleFirst (hmax : m.maxSize = s.maxSize)
    (hnanos : m.expirationNanos = s.expirationNanos) (hpolicy : m.expirationPolicy = .created)
    (hentries : m.entries = ExpiringEntry.scheduleFirst (s.entries.map Held.toExpiringEntry)) :
    s.scheduleFirst.Shows m := by
  refine ⟨?_, ?_, hpolicy, hentries.trans s.map_scheduleFirst.symm⟩
  · rw [hmax]
    simp only [State.scheduleFirst]
    split
    · rfl
    · split_ifs <;> rfl
  · rw [hnanos]
    simp only [State.scheduleFirst]
    split
    · rfl
    · split_ifs <;> rfl

lemma Shows.getEntry (h : s.Shows m) (key : K) :
    m.getEntry key = (s.getEntry key).map Held.toExpiringEntry := by
  simp only [ExpiringMap.getEntry, State.getEntry, h.entries, find?_map]
  rfl

lemma Shows.others (h : s.Shows m) (key : K) :
    m.others key = (s.others key).map Held.toExpiringEntry := by
  simp only [ExpiringMap.others, State.others, h.entries, filter_map]
  rfl

omit [DecidableEq K] in
/-- The entry is cancelled, and the next one is scheduled if it was. -/
lemma Shows.cancelled {s' : State K V} {m' : ExpiringMap K V} (hmax : m'.maxSize = s'.maxSize)
    (hnanos : m'.expirationNanos = s'.expirationNanos) (hpolicy : m'.expirationPolicy = .created)
    (hentries : m'.entries = if entry.scheduled then
        ExpiringEntry.scheduleFirst (s'.entries.map Held.toExpiringEntry)
      else s'.entries.map Held.toExpiringEntry) : (s'.cancelled entry).Shows m' := by
  simp only [State.cancelled]
  split_ifs at hentries ⊢ with hscheduled
  · exact Shows.scheduleFirst hmax hnanos hpolicy hentries
  · exact ⟨hmax, hnanos, hpolicy, hentries⟩

lemma Shows.remove (h : s.Shows m) (key : K) : (s.remove key).Shows (m.remove key).2 := by
  have hget := h.getEntry key
  cases hs : s.getEntry key with
  | none =>
      rw [hs] at hget
      simp only [ExpiringMap.remove, State.remove, hs]
      split
      · exact h
      · rename_i old hold
        cases hget.symm.trans hold
  | some entry =>
      rw [hs] at hget
      simp only [ExpiringMap.remove, State.remove, hs]
      split
      · rename_i hnone
        cases hget.symm.trans hnone
      · rename_i old hold
        obtain rfl := Option.some.inj (hget.symm.trans hold)
        refine Shows.cancelled h.maxSize h.expirationNanos h.policy ?_
        simp only [ExpiringMap.takeOut, h.others key]

end

lemma put_of_none (hget : m.getEntry key = none) (now : ℤ) (value : V) :
    (m.put now key value).2 = if m.size ≥ m.maxSize then m
      else m.add now key value (ExpiringMap.getEntry_eq_none_iff.1 hget) := by
  simp only [ExpiringMap.put, ExpiringMap.putInternal]
  split
  · split_ifs <;> rfl
  · rename_i old hold
    cases hget.symm.trans hold

lemma put_of_some {old : ExpiringEntry K V} (hget : m.getEntry key = some old) (now : ℤ)
    (value : V) : (m.put now key value).2 =
      if m.expirationPolicy ≠ .accessed ∧ old.value = value then m
      else m.resetEntry now key old value hget := by
  simp only [ExpiringMap.put, ExpiringMap.putInternal]
  split
  · rename_i hnone
    cases hget.symm.trans hnone
  · rename_i old' hold
    obtain rfl := Option.some.inj (hget.symm.trans hold)
    split_ifs <;> rfl

lemma Shows.put (h : s.Shows m) (key : K) (value : V) :
    (s.put key value).Shows (m.put s.now key value).2 := by
  have hget := h.getEntry key
  have hlength : m.entries.length = s.entries.length := by rw [h.entries, length_map]
  cases hs : s.getEntry key with
  | none =>
      rw [hs] at hget
      rw [put_of_none hget]
      simp only [State.put, hs, ExpiringMap.size, hlength, h.maxSize]
      split_ifs with hfull hone
      · exact h
      · have hnil : s.entries = [] := by simpa using hone
        refine Shows.scheduleFirst h.maxSize h.expirationNanos h.policy ?_
        simp only [ExpiringMap.add, h.entries, hnil, h.expirationNanos]
        rfl
      · refine ⟨h.maxSize, h.expirationNanos, h.policy, ?_⟩
        cases hentries : s.entries with
        | nil => simp [hentries] at hone
        | cons first rest =>
            simp only [ExpiringMap.add, h.entries, hentries, h.expirationNanos, map_append]
            rfl
  | some entry =>
      rw [hs] at hget
      rw [put_of_some hget]
      simp only [State.put, hs, h.policy, ne_eq, reduceCtorEq, not_false_eq_true, true_and]
      split_ifs with hvalue
      · exact h
      · refine Shows.cancelled h.maxSize h.expirationNanos h.policy ?_
        simp only [ExpiringMap.resetEntry, h.others key, h.expirationNanos, map_append, map_cons,
          map_nil]

omit [DecidableEq K] [DecidableEq V] in
/-- The loop of the expirer, in the map and in the state. -/
lemma expire_eq (now : ℤ) (entries : List (Held K V)) :
    ExpiringEntry.expire now (entries.map Held.toExpiringEntry) =
      ((entries.takeWhile fun entry => decide (entry.expectedExpiration ≤ now)).map
          fun entry => entry.key,
        ExpiringEntry.scheduleFirst
          ((entries.dropWhile fun entry => decide (entry.expectedExpiration ≤ now)).map
            Held.toExpiringEntry)) := by
  induction entries with
  | nil => rfl
  | cons entry entries ih =>
      simp only [map_cons, ExpiringEntry.expire, ih]
      by_cases hover : entry.expectedExpiration ≤ now
      · rw [if_pos hover, takeWhile_cons_of_pos (by simpa using hover),
          dropWhile_cons_of_pos (by simpa using hover)]
        rfl
      · rw [if_neg hover, takeWhile_cons_of_neg (by simpa using hover),
          dropWhile_cons_of_neg (by simpa using hover)]
        rfl

omit [DecidableEq V] in
/-- A task does what the expirer of the map does for the key of the task. -/
lemma Exact.shows_runTask (h : s.Exact) (hm : s.Shows m) {task : Task K}
    (hstarted : s.started = some task) (collected : Bool) :
    ({ s with started := none }.runTask task collected).Shows (m.run s.now task.key).2 ∧
      ({ s with started := none }.runTask task collected).fired.map Firing.key =
        s.fired.map Firing.key ++ (m.run s.now task.key).1 := by
  obtain ⟨first, rest, hentries, hfirst, rfl, -, hothers, heq⟩ := h.runTask_eq hstarted collected
  have hdue : (m.getEntry first.key).filter ExpiringEntry.scheduled =
      some first.toExpiringEntry := by
    have hget : s.getEntry first.key = some first := by
      simp only [getEntry]
      rw [hentries]
      exact find?_cons_of_pos (by simp)
    rw [hm.getEntry, hget]
    exact Option.filter_some_pos hfirst
  have hrest : m.others first.key = rest.map Held.toExpiringEntry := by rw [hm.others, hothers]
  rw [heq]
  simp only [ExpiringMap.run, taskOf, hdue, hrest, expire_eq, Option.isSome_some, if_true]
  refine ⟨Shows.scheduleFirst hm.maxSize hm.expirationNanos hm.policy rfl, ?_⟩
  rw [State.expire, (scheduleFirst_rest _).2.1]
  simp [firing]

end State

/-- An operation of the map, in which the expirer runs at once. -/
inductive Operation (K V : Type) where
  | put (now : ℤ) (key : K) (value : V)
  | remove (key : K)
  | clear
  | run (now : ℤ) (key : K)
deriving DecidableEq

lemma armed_nil {K V : Type} : ExpiringEntry.Armed ([] : List (ExpiringEntry K V)) := fun _ h =>
  absurd h (Option.not_mem_none _)

/-- A map with the policy `CREATED` and no entries. -/
def ExpiringMap.created {K V : Type} (maxSize expirationNanos : ℤ) : ExpiringMap K V where
  maxSize := maxSize
  expirationPolicy := .created
  expirationNanos := expirationNanos
  entries := []
  nodup := nodup_nil
  armed := armed_nil

def ExpiringMap.clear {K V : Type} (m : ExpiringMap K V) : ExpiringMap K V :=
  { m with entries := [], nodup := nodup_nil, armed := armed_nil }

/-- An operation on a map, with the keys for which the listener has been called. -/
def ExpiringMap.perform {K V : Type} [DecidableEq K] [DecidableEq V]
    (m : List K × ExpiringMap K V) : Operation K V → List K × ExpiringMap K V
  | .put now key value => (m.1, (m.2.put now key value).2)
  | .remove key => (m.1, (m.2.remove key).2)
  | .clear => (m.1, m.2.clear)
  | .run now key => (m.1 ++ (m.2.run now key).1, (m.2.run now key).2)

namespace State

variable {K V : Type} [DecidableEq K] [DecidableEq V] {s s' : State K V}

omit [DecidableEq K] [DecidableEq V] in
/-- What an action is on the map. -/
def operations (s : State K V) : Action K V → List (Operation K V)
  | .put key value => [.put s.now key value]
  | .remove key => [.remove key]
  | .clear => [.clear]
  | .run _ => s.started.toList.map fun task => .run s.now task.key
  | .tick _ | .start _ => []

omit [DecidableEq K] [DecidableEq V] in
/-- The entries of a map and the calls of the listener are those of the state. -/
structure Follows (s : State K V) (m : List K × ExpiringMap K V) : Prop where
  shows : s.Shows m.2
  fired : m.1 = s.fired.map Firing.key

omit [DecidableEq K] [DecidableEq V] in
lemma fired_cancelled (entry : Held K V) : (s.cancelled entry).fired = s.fired := by
  simp only [State.cancelled]
  split_ifs
  · exact (scheduleFirst_rest _).2.1
  · rfl

omit [DecidableEq V] in
lemma fired_remove (key : K) : (s.remove key).fired = s.fired := by
  simp only [State.remove]
  cases s.getEntry key with
  | none => rfl
  | some entry => exact fired_cancelled entry

lemma fired_put (key : K) (value : V) : (s.put key value).fired = s.fired := by
  simp only [State.put]
  cases s.getEntry key with
  | none =>
      dsimp only
      split_ifs
      · rfl
      · exact (scheduleFirst_rest _).2.1
      · rfl
  | some entry =>
      dsimp only
      split_ifs
      · rfl
      · exact fired_cancelled entry

lemma Exact.follows_step {m : List K × ExpiringMap K V} (h : s.Exact) (hf : s.Follows m)
    {action : Action K V} (hstep : s.step action = some s') :
    s'.Follows ((s.operations action).foldl ExpiringMap.perform m) := by
  cases action with
  | put key value =>
      obtain rfl := Option.some.inj hstep
      exact ⟨hf.shows.put key value, hf.fired.trans (by rw [fired_put])⟩
  | remove key =>
      obtain rfl := Option.some.inj hstep
      exact ⟨hf.shows.remove key, hf.fired.trans (by rw [fired_remove])⟩
  | clear =>
      obtain rfl := Option.some.inj hstep
      exact ⟨⟨hf.shows.maxSize, hf.shows.expirationNanos, hf.shows.policy, rfl⟩, hf.fired⟩
  | tick nanos =>
      obtain rfl := Option.some.inj hstep
      exact ⟨⟨hf.shows.maxSize, hf.shows.expirationNanos, hf.shows.policy, hf.shows.entries⟩,
        hf.fired⟩
  | start task =>
      simp only [State.step] at hstep
      split_ifs at hstep
      obtain rfl := Option.some.inj hstep
      exact ⟨⟨hf.shows.maxSize, hf.shows.expirationNanos, hf.shows.policy, hf.shows.entries⟩,
        hf.fired⟩
  | run collected =>
      obtain ⟨task, hstarted, rfl⟩ := Option.map_eq_some_iff.1 hstep
      obtain ⟨hshows, hfired⟩ := h.shows_runTask hf.shows hstarted collected
      simp only [operations, hstarted, Option.toList_some, map_cons, map_nil, foldl_cons,
        foldl_nil]
      refine ⟨hshows, ?_⟩
      rw [hfired, ← hf.fired]
      rfl

/-! ### Results -/

/-- **No entry is forgotten.**  However the threads take turns, the task of the first entry waits
for its time or has begun, and when no task has begun and none can begin, no entry is overdue. -/
theorem not_overdue {maxSize expirationNanos now : ℤ} {actions : List (Action K V)}
    {s : State K V} (hrun : run step (empty maxSize expirationNanos now) actions = some s) :
    (∀ first ∈ s.entries.head?, taskOf first ∈ s.tasks ∨ s.started = some (taskOf first)) ∧
      (s.started = none → (∀ task ∈ s.tasks, s.now < task.due) →
        ∀ entry ∈ s.entries, s.now < entry.expectedExpiration) := by
  have h : s.Inv := invariant_run (fun _ _ _ _ hI _ hs => Inv.step hI hs)
    (inv_empty maxSize expirationNanos now) (allSteps_true _ _) hrun
  refine ⟨fun first hfirst => ?_, h.now_lt⟩
  exact h.task first (mem_of_mem_head? hfirst) (h.armed first hfirst)

/-- **Each entry expires once.**  If no other thread gets a turn between the begin of a task and its
lock, there is at most one task, and every entry that was ever put is in the map, or was taken out
by `remove` or `clear`, or was handed to the listener, just one of these and once, and to the
listener not before its time. -/
theorem expired_once {maxSize expirationNanos now : ℤ} {actions : List (Action K V)}
    {s : State K V} (hrun : run step (empty maxSize expirationNanos now) actions = some s)
    (hprompt : AllSteps step Prompt (empty maxSize expirationNanos now) actions) :
    (s.tasks ++ s.started.toList).length ≤ 1 ∧
      (∀ id, s.places id = if id < s.created then 1 else 0) ∧
      ∀ firing ∈ s.fired, firing.expectedExpiration ≤ firing.time := by
  have h : s.Exact := invariant_run (fun _ _ _ _ hE hP hs => Exact.step hE hP hs)
    (exact_empty maxSize expirationNanos now) hprompt hrun
  refine ⟨?_, h.once, h.inTime⟩
  rw [h.single]
  cases s.entries.head? <;> simp

/-- **The map is what the threads do.**  If no other thread gets a turn between the begin of a task
and its lock, the entries and the calls of the listener are those of a map on which the puts,
removals and clears of the threads are performed in their order, and whose expirer runs at once
where a task gets the lock. -/
theorem refines_map {maxSize expirationNanos now : ℤ} {actions : List (Action K V)}
    {s : State K V} (hrun : run step (empty maxSize expirationNanos now) actions = some s)
    (hprompt : AllSteps step Prompt (empty maxSize expirationNanos now) actions) :
    s.Follows ((images step operations (empty maxSize expirationNanos now) actions).foldl
      ExpiringMap.perform ([], .created maxSize expirationNanos)) := by
  refine (simulation_run ExpiringMap.perform (fun s m => s.Exact ∧ s.Follows m)
    (fun s action s' m h hP hstep => ?_) ?_ hprompt hrun).2
  · exact ⟨h.1.step hP hstep, h.1.follows_step h.2 hstep⟩
  · exact ⟨exact_empty maxSize expirationNanos now, ⟨rfl, rfl, rfl, rfl⟩, rfl⟩

/-- Of three entries the first one expires and the last one is removed. -/
def sampleActions : List (Action ℕ ℕ) :=
  [.put 1 0, .tick 3, .put 2 0, .put 3 0, .tick 7, .start ⟨0, 1, 10⟩, .run false, .remove 3]

def sampleEnd : State ℕ ℕ := (run step (empty 5 10 0) sampleActions).get (by decide)

theorem not_overdue_sample :
    sampleEnd.entries.map (fun entry => entry.key) = [2] ∧
      ∀ entry ∈ sampleEnd.entries, sampleEnd.now < entry.expectedExpiration :=
  ⟨by decide, (not_overdue (s := sampleEnd) (Option.some_get _).symm).2 (by decide) (by decide)⟩

instance decidablePrompt (s : State ℕ ℕ) : ∀ action, Decidable (s.Prompt action)
  | .put _ _ | .remove _ | .clear | .start _ =>
      decidable_of_iff (s.started.isNone = true) Option.isNone_iff_eq_none
  | .tick _ | .run _ => inferInstanceAs (Decidable True)

theorem expired_once_sample :
    sampleEnd.fired.map Firing.id = [0] ∧ sampleEnd.removed = [2] ∧
      ∀ id, sampleEnd.places id = if id < sampleEnd.created then 1 else 0 :=
  ⟨by decide, by decide, (expired_once (Option.some_get _).symm (by decide +kernel)).2.1⟩

theorem refines_map_sample :
    images step operations (empty 5 10 0) sampleActions =
      [.put 0 1 0, .put 3 2 0, .put 3 3 0, .run 10 1, .remove 3] ∧
    sampleEnd.Follows ((images step operations (empty 5 10 0) sampleActions).foldl
      ExpiringMap.perform ([], .created 5 10)) :=
  ⟨by decide, refines_map (Option.some_get _).symm (by decide +kernel)⟩

/-- With a turn in between, an entry is handed to the listener twice: the task of the first entry
has begun when this entry is removed, and takes out the second one, whose own task is waiting.  And
one that is put again when its task has begun is handed over at once. -/
theorem not_expired_once :
    (∃ s, run step (empty 5 10 0) [.put 1 0, .put 2 0, .tick 10, .start ⟨0, 1, 10⟩, .remove 1,
      .run false, .start ⟨1, 2, 10⟩, .run false] = some s ∧ s.places 1 = 2) ∧
    ∃ s, run step (empty 5 10 0) [.put 1 0, .tick 10, .start ⟨0, 1, 10⟩, .put 1 1,
      .run false] = some s ∧ ∃ firing ∈ s.fired, firing.time < firing.expectedExpiration := by
  have htwice : (run step (empty 5 10 0) ([.put 1 0, .put 2 0, .tick 10, .start ⟨0, 1, 10⟩,
      .remove 1, .run false, .start ⟨1, 2, 10⟩, .run false] : List (Action ℕ ℕ))).map
        (fun s => s.places 1) = some 2 := by decide
  have hearly : (run step (empty 5 10 0) ([.put 1 0, .tick 10, .start ⟨0, 1, 10⟩, .put 1 1,
      .run false] : List (Action ℕ ℕ))).map State.fired = some [⟨0, 1, 20, 10⟩] := by decide
  obtain ⟨s, hrun, hplaces⟩ := Option.map_eq_some_iff.1 htwice
  obtain ⟨s', hrun', hfired⟩ := Option.map_eq_some_iff.1 hearly
  refine ⟨⟨s, hrun, hplaces⟩, s', hrun', ⟨0, 1, 20, 10⟩, ?_, by decide⟩
  rw [hfired]
  exact mem_singleton_self _

end State

end Expirer

end Stuart
