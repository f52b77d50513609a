import Mathlib.Logic.Function.Basic
import Mathlib.Logic.Relation
/-!
# Reader-writer locks that queue

Tasks take and give back named locks one action at a time. A lock is fair: a
request is granted at once only if nobody waits and the holders allow it, and
otherwise queues; when a lock is given back, requests are granted from the front
of the queue as long as the holders allow them. So a reader waits behind a writer
that waits.

`WaitsFor` is the wait-for relation of a state. `acyclic_of_rank`: it has no cycle
if every task that waits holds only locks of lower rank than the one it waits for.
What a task holds where it waits is read off its program (`Follows`), and
every step keeps that (`turn_sound`, `abort_sound`).
-/

namespace Eggchaos.Lib.Locks

variable {L : Type}

inductive Mode where
  | read
  | write
deriving DecidableEq, Repr

inductive Act (L : Type) where
  | acquire (l : L) (mode : Mode)
  | release (l : L)

structure LockTask (L : Type) where
  held : List (L × Mode)
  waiting : Option (L × Mode)
  todo : List (Act L)

/-- The task once it has got the lock. -/
def LockTask.granted (t : LockTask L) (l : L) (mode : Mode) : LockTask L :=
  { t with held := (l, mode) :: t.held, waiting := none }

/-- The tasks, and for each lock those that wait for it, first come first. -/
structure LockState (L : Type) where
  tasks : List (LockTask L)
  queue : L → List Nat

namespace LockState

def empty : LockState L := ⟨[], fun _ => []⟩

section
variable [DecidableEq L] (s : LockState L)

/-- The holders of the lock allow the request. -/
def free (l : L) : Mode → Bool
  | .read => s.tasks.all fun t => t.held.all fun h => h.1 ≠ l || h.2 = .read
  | .write => s.tasks.all fun t => t.held.all fun h => h.1 ≠ l

def enter (i : Nat) (l : L) (mode : Mode) : LockState L :=
  { s with tasks := s.tasks.modify i fun t => t.granted l mode }

/-- Requests are granted from the front of the queue. -/
def grant (l : L) : List Nat → LockState L → LockState L
  | [], s => { s with queue := Function.update s.queue l [] }
  | i :: rest, s =>
    match (s.tasks[i]?).bind (·.waiting) with
    | none => grant l rest s
    | some (_, mode) =>
      if s.free l mode then grant l rest (s.enter i l mode)
      else { s with queue := Function.update s.queue l (i :: rest) }

def request (i : Nat) (l : L) (mode : Mode) : LockState L :=
  if (s.queue l).isEmpty && s.free l mode then s.enter i l mode
  else
    { tasks := s.tasks.modify i fun t => { t with waiting := some (l, mode) }
      queue := Function.update s.queue l (s.queue l ++ [i]) }

def giveBack (i : Nat) (l : L) : LockState L :=
  grant l (s.queue l) { s with tasks := s.tasks.modify i fun t => { t with held := t.held.filter (·.1 ≠ l) } }

/-- A task that does not wait takes its next action. -/
def turn (i : Nat) : LockState L :=
  match s.tasks[i]? with
  | none => s
  | some t =>
    match t.waiting, t.todo with
    | some _, _ | none, [] => s
    | none, act :: todo =>
      let s : LockState L := { s with tasks := s.tasks.modify i fun t => { t with todo } }
      match act with
      | .acquire l mode => s.request i l mode
      | .release l => s.giveBack i l

/-- A task is dropped where it stands: it leaves the queue and gives back what it
holds. -/
def abort (i : Nat) : LockState L :=
  match s.tasks[i]? with
  | none => s
  | some t =>
    let left : LockState L :=
      { tasks := s.tasks.modify i fun _ => ⟨[], none, []⟩, queue := fun l => (s.queue l).filter (· ≠ i) }
    (t.held.map (·.1) ++ t.waiting.toList.map (·.1)).foldl (fun s l => grant l (s.queue l) s) left

def start (program : List (Act L)) : LockState L := { s with tasks := s.tasks ++ [⟨[], none, program⟩] }

end

/-! ## Waiting -/

variable (s : LockState L)

/-- `a` waits for a lock that `b` holds, or behind a request of `b`. -/
def WaitsFor (a b : Nat) : Prop :=
  ∃ t l mode, s.tasks[a]? = some t ∧ t.waiting = some (l, mode) ∧
    ((∃ u, s.tasks[b]? = some u ∧ l ∈ u.held.map (·.1)) ∨
      b ∈ s.queue l ∧ (s.queue l).idxOf b < (s.queue l).idxOf a)

/-- Who is in a queue waits for that lock. -/
def Queued : Prop := ∀ l, ∀ i ∈ s.queue l, ∃ t mode, s.tasks[i]? = some t ∧ t.waiting = some (l, mode)

variable {s}

/-- A task that waits comes before one that it waits for, directly or not, if that
one waits too: in rank, or in the same queue. -/
theorem rank_of_transGen (hq : s.Queued) {rank : L → Nat}
    (hrank : ∀ t ∈ s.tasks, ∀ l mode, t.waiting = some (l, mode) → ∀ h ∈ t.held.map (·.1), rank h < rank l) {a b : Nat}
    (hab : Relation.TransGen s.WaitsFor a b) {u : LockTask L} {l' : L} {mode' : Mode} (hu : s.tasks[b]? = some u)
    (hwait : u.waiting = some (l', mode')) :
    ∃ t l mode, s.tasks[a]? = some t ∧ t.waiting = some (l, mode) ∧
      (rank l < rank l' ∨ l = l' ∧ (s.queue l).idxOf b < (s.queue l).idxOf a) := by
  -- one edge into a task that waits
  have edge : ∀ {c d : Nat} {u : LockTask L} {l' : L} {mode' : Mode}, s.WaitsFor c d → s.tasks[d]? = some u →
      u.waiting = some (l', mode') → ∃ t l mode, s.tasks[c]? = some t ∧ t.waiting = some (l, mode) ∧
        (rank l < rank l' ∨ l = l' ∧ (s.queue l).idxOf d < (s.queue l).idxOf c) := by
    rintro c d u l' mode' ⟨t, l, mode, ht, htw, hold | ⟨hmem, hlt⟩⟩ hu hwait
    · obtain ⟨u', hu', hheld⟩ := hold
      rw [hu] at hu'
      cases hu'
      exact ⟨t, l, mode, ht, htw, .inl (hrank u (List.mem_of_getElem? hu) l' mode' hwait l hheld)⟩
    · obtain ⟨u', mode'', hu', hwait'⟩ := hq l d hmem
      rw [hu] at hu'
      cases hu'
      rw [hwait] at hwait'
      cases hwait'
      exact ⟨t, l', mode, ht, htw, .inr ⟨rfl, hlt⟩⟩
  induction hab generalizing u l' mode' with
  | single hac => exact edge hac hu hwait
  | tail _ hcd ih =>
    obtain ⟨t, l, mode, ht, htw, hstep⟩ := edge hcd hu hwait
    obtain ⟨t', l'', mode'', ht', htw', hpath⟩ := ih ht htw
    refine ⟨t', l'', mode'', ht', htw', ?_⟩
    rcases hpath with hlt | ⟨rfl, hlt⟩
    · rcases hstep with hlt' | ⟨rfl, -⟩
      · exact .inl (Nat.lt_trans hlt hlt')
      · exact .inl hlt
    · rcases hstep with hlt' | ⟨rfl, hlt'⟩
      · exact .inl hlt'
      · exact .inr ⟨rfl, Nat.lt_trans hlt' hlt⟩

/-- Locks that are taken in the order of their rank are never waited for in a
cycle. -/
theorem acyclic_of_rank (hq : s.Queued) (rank : L → Nat)
    (hrank : ∀ t ∈ s.tasks, ∀ l mode, t.waiting = some (l, mode) → ∀ h ∈ t.held.map (·.1), rank h < rank l) (a : Nat) :
    ¬ Relation.TransGen s.WaitsFor a a := by
  intro hcycle
  have hwaits : ∃ t l mode, s.tasks[a]? = some t ∧ t.waiting = some (l, mode) := by
    obtain ⟨c, ⟨t, l, mode, ht, htw, -⟩, -⟩ := Relation.TransGen.head'_iff.1 hcycle
    exact ⟨t, l, mode, ht, htw⟩
  obtain ⟨t, l, mode, ht, htw⟩ := hwaits
  obtain ⟨t', l', mode', ht', htw', hlt⟩ := rank_of_transGen hq hrank hcycle ht htw
  rw [ht] at ht'
  cases ht'
  rw [htw] at htw'
  cases htw'
  rcases hlt with hlt | ⟨-, hlt⟩
  · exact Nat.lt_irrefl _ hlt
  · exact Nat.lt_irrefl _ hlt

/-! ## Queues -/

/-- The task waits for this lock. -/
def Waits (s : LockState L) (i : Nat) (l : L) : Prop := ∃ t mode, s.tasks[i]? = some t ∧ t.waiting = some (l, mode)

/-- Who is in a queue waits for that lock, and is there once. -/
structure Fair (s : LockState L) : Prop where
  queued : s.Queued
  nodup : ∀ l, (s.queue l).Nodup

theorem Waits.enter {i j : Nat} {l l' : L} (h : s.Waits j l') (hne : j ≠ i) (mode : Mode) :
    (s.enter i l mode).Waits j l' := by
  obtain ⟨t, mode', ht, hw⟩ := h
  exact ⟨t, mode', by simp [LockState.enter, ht, Ne.symm hne], hw⟩

theorem Waits.unique {i : Nat} {l l' : L} (h : s.Waits i l) (h' : s.Waits i l') : l = l' := by
  obtain ⟨t, mode, ht, hw⟩ := h
  obtain ⟨t', mode', ht', hw'⟩ := h'
  rw [ht] at ht'
  cases ht'
  rw [hw] at hw'
  cases hw'
  rfl

variable [DecidableEq L]

theorem grant_fair (l : L) (rest : List Nat) (hrest : ∀ i ∈ rest, s.Waits i l) (hnd : rest.Nodup)
    (hothers : ∀ l' ≠ l, ∀ i ∈ s.queue l', s.Waits i l') (hnodup : ∀ l' ≠ l, (s.queue l').Nodup) :
    (grant l rest s).Fair := by
  -- a queue that is set to its remaining requests
  have close : ∀ {s : LockState L} {rest : List Nat}, (∀ i ∈ rest, s.Waits i l) → rest.Nodup →
      (∀ l' ≠ l, ∀ i ∈ s.queue l', s.Waits i l') → (∀ l' ≠ l, (s.queue l').Nodup) →
      Fair { s with queue := Function.update s.queue l rest } := by
    intro s rest hrest hnd hothers hnodup
    constructor
    · intro l' i hi
      by_cases hl : l' = l
      · subst hl
        simp only [Function.update_self] at hi
        exact hrest i hi
      · simp only [Function.update_of_ne hl] at hi
        exact hothers l' hl i hi
    · intro l'
      by_cases hl : l' = l
      · subst hl
        simpa using hnd
      · simpa [Function.update_of_ne hl] using hnodup l' hl
  induction rest generalizing s with
  | nil => exact close hrest hnd hothers hnodup
  | cons i rest ih =>
    obtain ⟨hi, hnd'⟩ := List.nodup_cons.1 hnd
    obtain ⟨t, mode, ht, hw⟩ := hrest i (List.mem_cons_self ..)
    unfold grant
    simp only [ht, Option.bind_some, hw]
    split
    · refine ih ?_ hnd' ?_ hnodup
      · intro j hj
        refine (hrest j (List.mem_cons_of_mem _ hj)).enter ?_ mode
        rintro rfl
        exact hi hj
      · intro l' hl j hj
        refine (hothers l' hl j hj).enter ?_ mode
        rintro rfl
        exact hl ((hothers l' hl j hj).unique ⟨t, mode, ht, hw⟩)
    · exact close hrest hnd hothers hnodup

omit [DecidableEq L] in
/-- A change of a task that does not wait. -/
theorem Fair.modify (h : s.Fair) {i : Nat} {t : LockTask L} (ht : s.tasks[i]? = some t) (hw : t.waiting = none)
    (f : LockTask L → LockTask L) : Fair { s with tasks := s.tasks.modify i f } := by
  refine ⟨fun l j hj => ?_, h.nodup⟩
  obtain ⟨u, mode, hu, huw⟩ := h.queued l j hj
  have hne : i ≠ j := by
    rintro rfl
    rw [ht] at hu
    cases hu
    rw [hw] at huw
    cases huw
  exact ⟨u, mode, by simp [hu, hne], huw⟩

theorem request_fair (h : s.Fair) {i : Nat} {t : LockTask L} (ht : s.tasks[i]? = some t) (hw : t.waiting = none) (l : L)
    (mode : Mode) : (s.request i l mode).Fair := by
  unfold request
  split
  · exact h.modify ht hw _
  · have hmod := h.modify ht hw fun t => { t with waiting := some (l, mode) }
    constructor
    · intro l' j hj
      by_cases hl : l' = l
      · subst hl
        simp only [Function.update_self] at hj
        rcases List.mem_append.1 hj with hold | hnew
        · exact hmod.queued l' j hold
        · rw [List.mem_singleton.1 hnew]
          exact ⟨{ t with waiting := some (l', mode) }, mode, by simp [ht], rfl⟩
      · simp only [Function.update_of_ne hl] at hj
        exact hmod.queued l' j hj
    · intro l'
      by_cases hl : l' = l
      · subst hl
        simp only [Function.update_self]
        refine List.nodup_append.2 ⟨h.nodup l', List.pairwise_singleton _ i, ?_⟩
        rintro j hj _ hk rfl
        rw [List.mem_singleton.1 hk] at hj
        obtain ⟨u, mode', hu, huw⟩ := h.queued l' i hj
        rw [ht] at hu
        cases hu
        rw [hw] at huw
        cases huw
      · simpa [Function.update_of_ne hl] using h.nodup l'

theorem Fair.grant (h : s.Fair) (l : L) : (grant l (s.queue l) s).Fair :=
  grant_fair l _ (h.queued l) (h.nodup l) (fun l' _ => h.queued l') (fun l' _ => h.nodup l')

theorem giveBack_fair (h : s.Fair) {i : Nat} {t : LockTask L} (ht : s.tasks[i]? = some t) (hw : t.waiting = none) (l : L) :
    (s.giveBack i l).Fair := by
  have hmod := h.modify ht hw fun t => { t with held := t.held.filter (·.1 ≠ l) }
  exact hmod.grant l

theorem turn_fair (h : s.Fair) (i : Nat) : (s.turn i).Fair := by
  unfold turn
  split
  · exact h
  · next t ht =>
    split
    · exact h
    · exact h
    · next act todo hw htodo =>
      have hmod := h.modify ht hw fun t => { t with todo }
      have ht' : (s.tasks.modify i fun t => { t with todo })[i]? = some { t with todo } := by
        simp [ht]
      cases act with
      | acquire l mode => exact request_fair hmod ht' hw l mode
      | release l => exact giveBack_fair hmod ht' hw l

omit [DecidableEq L] in
theorem left_fair (h : s.Fair) (i : Nat) :
    Fair { tasks := s.tasks.modify i fun _ => ⟨[], none, []⟩, queue := fun l => (s.queue l).filter (· ≠ i) } := by
  constructor
  · intro l j hj
    obtain ⟨hj, hne⟩ := List.mem_filter.1 hj
    obtain ⟨u, mode, hu, huw⟩ := h.queued l j hj
    have hne : i ≠ j := fun hij => by simp [hij] at hne
    exact ⟨u, mode, by simp [hu, hne], huw⟩
  · intro l
    exact (h.nodup l).filter _

theorem abort_fair (h : s.Fair) (i : Nat) : (s.abort i).Fair := by
  unfold abort
  split
  · exact h
  · exact List.foldlRecOn _ _ (left_fair h i) fun s hs l _ => hs.grant l

omit [DecidableEq L] in
theorem start_fair (h : s.Fair) (program : List (Act L)) : (s.start program).Fair := by
  refine ⟨fun l j hj => ?_, h.nodup⟩
  obtain ⟨u, mode, hu, huw⟩ := h.queued l j hj
  refine ⟨u, mode, ?_, huw⟩
  simp only [start]
  rw [List.getElem?_append_left (List.getElem?_eq_some_iff.1 hu).1]
  exact hu

/-! ## Steps, seen from each task -/

/-- Granting the front of a queue leaves each task as it was, or grants it the lock
it waits for. -/
theorem grant_tasks (l : L) (rest : List Nat) (hrest : ∀ i ∈ rest, s.Waits i l) (hnd : rest.Nodup) {j : Nat}
    {u : LockTask L} (hu : (grant l rest s).tasks[j]? = some u) :
    ∃ t, s.tasks[j]? = some t ∧ (u = t ∨ ∃ mode, t.waiting = some (l, mode) ∧ u = t.granted l mode) := by
  induction rest generalizing s with
  | nil => exact ⟨u, hu, .inl rfl⟩
  | cons i rest ih =>
    obtain ⟨hi, hnd'⟩ := List.nodup_cons.1 hnd
    obtain ⟨t, mode, ht, hw⟩ := hrest i (List.mem_cons_self ..)
    unfold grant at hu
    simp only [ht, Option.bind_some, hw] at hu
    split at hu
    · have hrest' : ∀ k ∈ rest, (s.enter i l mode).Waits k l := by
        intro k hk
        refine (hrest k (List.mem_cons_of_mem _ hk)).enter ?_ mode
        rintro rfl
        exact hi hk
      obtain ⟨t', ht', hcase⟩ := ih hrest' hnd' hu
      by_cases hij : i = j
      · subst hij
        have ht'' : t' = t.granted l mode := by
          simpa [LockState.enter, ht, LockTask.granted, eq_comm] using ht'
        refine ⟨t, ht, .inr ⟨mode, hw, ?_⟩⟩
        rcases hcase with rfl | ⟨mode', hw', -⟩
        · exact ht''
        · rw [ht''] at hw'
          cases hw'
      · refine ⟨t', ?_, hcase⟩
        simpa [LockState.enter, hij] using ht'
    · exact ⟨u, hu, .inl rfl⟩

theorem Fair.grant_tasks (h : s.Fair) (l : L) {j : Nat} {u : LockTask L}
    (hu : (LockState.grant l (s.queue l) s).tasks[j]? = some u) :
    ∃ t, s.tasks[j]? = some t ∧ (u = t ∨ ∃ mode, t.waiting = some (l, mode) ∧ u = t.granted l mode) :=
  LockState.grant_tasks l _ (h.queued l) (h.nodup l) hu

/-- What the steps of others make of a task: it is left as it was, or granted the
lock it waits for. -/
def Passed (t u : LockTask L) : Prop := u = t ∨ ∃ l mode, t.waiting = some (l, mode) ∧ u = t.granted l mode

omit [DecidableEq L] in
theorem Passed.refl (t : LockTask L) : Passed t t := .inl rfl

omit [DecidableEq L] in
theorem Passed.trans {t u v : LockTask L} (h : Passed t u) (h' : Passed u v) : Passed t v := by
  rcases h with rfl | ⟨l, mode, hw, rfl⟩
  · exact h'
  · rcases h' with rfl | ⟨l', mode', hw', -⟩
    · exact .inr ⟨l, mode, hw, rfl⟩
    · cases hw'

/-- What its own turn makes of a task. -/
inductive Turned (s : LockState L) (t u : LockTask L) : Prop where
  | idle (hu : u = t)
  | entered (l : L) (mode : Mode) (todo : List (Act L)) (hw : t.waiting = none) (ht : t.todo = .acquire l mode :: todo)
      (hu : u = { t with todo }.granted l mode)
  | queued (l : L) (mode : Mode) (todo : List (Act L)) (hw : t.waiting = none) (ht : t.todo = .acquire l mode :: todo)
      (hno : ¬ (s.queue l = [] ∧ s.free l mode)) (hu : u = { t with waiting := some (l, mode), todo })
  | gaveBack (l : L) (todo : List (Act L)) (hw : t.waiting = none) (ht : t.todo = .release l :: todo)
      (hu : u = { t with held := t.held.filter (·.1 ≠ l), todo })

/-- The todo list plays no part in who may have a lock. -/
theorem free_modify_todo (i : Nat) (todo : List (Act L)) (l : L) (mode : Mode) :
    free { s with tasks := s.tasks.modify i fun t => { t with todo } } l mode = s.free l mode := by
  have hall : ∀ (p : List (L × Mode) → Bool), (s.tasks.modify i fun t => { t with todo }).all (fun t => p t.held) =
      s.tasks.all fun t => p t.held := by
    intro p
    rw [Bool.eq_iff_iff]
    simp only [List.all_eq_true, List.mem_iff_getElem?]
    constructor
    · rintro h t ⟨k, hk⟩
      by_cases hik : i = k
      · subst hik
        exact h { t with todo } ⟨i, by simp [hk]⟩
      · exact h t ⟨k, by simp [hik, hk]⟩
    · rintro h t ⟨k, hk⟩
      obtain ⟨t', ht', hheld⟩ : ∃ t', s.tasks[k]? = some t' ∧ t'.held = t.held := by
        simp only [List.getElem?_modify, Option.map_eq_map, Option.map_eq_some_iff] at hk
        obtain ⟨t', ht', rfl⟩ := hk
        exact ⟨t', ht', by split <;> rfl⟩
      rw [← hheld]
      exact h t' ⟨k, ht'⟩
  cases mode with
  | read => exact hall fun held => held.all fun h => h.1 ≠ l || h.2 = .read
  | write => exact hall fun held => held.all fun h => h.1 ≠ l

/-- One turn, seen from each task. -/
theorem turn_tasks (h : s.Fair) (i : Nat) {j : Nat} {u : LockTask L} (hu : (s.turn i).tasks[j]? = some u) :
    ∃ t, s.tasks[j]? = some t ∧ (if j = i then Turned s t u else Passed t u) := by
  have same : ∀ {u : LockTask L}, s.tasks[j]? = some u →
      ∃ t, s.tasks[j]? = some t ∧ (if j = i then Turned s t u else Passed t u) := by
    intro u hu
    refine ⟨u, hu, ?_⟩
    split
    · exact .idle rfl
    · exact .refl u
  unfold turn at hu
  split at hu
  · exact same hu
  · next t ht =>
    split at hu
    · exact same hu
    · exact same hu
    · next act todo hw htodo =>
      have hmod := h.modify ht hw fun t => { t with todo }
      have ht' : (s.tasks.modify i fun t => { t with todo })[i]? = some { t with todo } := by
        simp [ht]
      cases act with
      | acquire l mode =>
        simp only [request, free_modify_todo] at hu
        by_cases hij : j = i
        · subst hij
          refine ⟨t, ht, ?_⟩
          rw [if_pos rfl]
          split at hu
          · next hcan =>
            refine .entered l mode todo hw htodo ?_
            simpa [LockState.enter, ht, eq_comm] using hu
          · next hcan =>
            refine .queued l mode todo hw htodo ?_ ?_
            · simpa using hcan
            · simpa [ht, eq_comm] using hu
        · refine ⟨u, ?_, by rw [if_neg hij]; exact .refl u⟩
          split at hu
          · simpa [LockState.enter, Ne.symm hij] using hu
          · simpa [Ne.symm hij] using hu
      | release l =>
        have hback := hmod.modify ht' hw fun t => { t with held := t.held.filter (·.1 ≠ l) }
        obtain ⟨v, hv, hcase⟩ := hback.grant_tasks l hu
        by_cases hij : j = i
        · subst hij
          refine ⟨t, ht, ?_⟩
          rw [if_pos rfl]
          have hv' : v = { t with held := t.held.filter (·.1 ≠ l), todo } := by
            simpa [ht, eq_comm] using hv
          rcases hcase with rfl | ⟨mode, hw', -⟩
          · exact .gaveBack l todo hw htodo hv'
          · rw [hv', hw] at hw'
            cases hw'
        · refine ⟨v, by simpa [Ne.symm hij] using hv, ?_⟩
          rw [if_neg hij]
          rcases hcase with rfl | ⟨mode, hw', rfl⟩
          · exact .refl _
          · exact .inr ⟨l, mode, hw', rfl⟩

theorem abort_tasks (h : s.Fair) (i : Nat) {j : Nat} {u : LockTask L} (hu : (s.abort i).tasks[j]? = some u) :
    ∃ t, s.tasks[j]? = some t ∧ (if j = i then u = ⟨[], none, []⟩ else Passed t u) := by
  unfold abort at hu
  split at hu
  · next hnone =>
    refine ⟨u, hu, ?_⟩
    have hne : j ≠ i := by
      rintro rfl
      rw [hnone] at hu
      cases hu
    rw [if_neg hne]
    exact .refl u
  · next t ht =>
    have hleft := left_fair h i
    -- the locks it had in hand or waited for are granted to others one by one
    have pass : ∀ (ls : List L) (s : LockState L), s.Fair → ∀ {u : LockTask L},
        (ls.foldl (fun s l => grant l (s.queue l) s) s).tasks[j]? = some u → ∃ t, s.tasks[j]? = some t ∧ Passed t u := by
      intro ls
      induction ls with
      | nil => exact fun s _ u hu => ⟨u, hu, .refl u⟩
      | cons l ls ih =>
        intro s hs u hu
        obtain ⟨v, hv, hvu⟩ := ih _ (hs.grant l) hu
        obtain ⟨t, ht, hcase⟩ := hs.grant_tasks l hv
        refine ⟨t, ht, Passed.trans ?_ hvu⟩
        rcases hcase with rfl | ⟨mode, hw, rfl⟩
        · exact .refl _
        · exact .inr ⟨l, mode, hw, rfl⟩
    obtain ⟨v, hv, hvu⟩ := pass _ _ hleft hu
    by_cases hij : j = i
    · subst hij
      refine ⟨t, ht, ?_⟩
      rw [if_pos rfl]
      have hv' : v = ⟨[], none, []⟩ := by simpa [ht, eq_comm] using hv
      subst hv'
      rcases hvu with rfl | ⟨l, mode, hw, -⟩
      · rfl
      · cases hw
    · refine ⟨v, by simpa [Ne.symm hij] using hv, ?_⟩
      rw [if_neg hij]
      exact hvu

/-! ## What a task holds where it waits

`R h l` says that a task may ask for `l` with `h` in hand. -/

variable (R : L → L → Prop)

/-- Every lock that the rest of a program asks for may be asked for with what it
then has in hand. -/
def Follows : List L → List (Act L) → Prop
  | _, [] => True
  | held, .acquire l _ :: todo => (∀ h ∈ held, R h l) ∧ Follows (l :: held) todo
  | held, .release l :: todo => Follows (held.filter (· ≠ l)) todo

def Orderly (t : LockTask L) : Prop :=
  match t.waiting with
  | none => Follows R (t.held.map (·.1)) t.todo
  | some (l, _) => (∀ h ∈ t.held.map (·.1), R h l) ∧ Follows R (l :: t.held.map (·.1)) t.todo

/-- The queues are in order, and so is every task. -/
structure Sound (s : LockState L) : Prop where
  fair : s.Fair
  orderly : ∀ t ∈ s.tasks, Orderly R t

variable {R}

theorem Orderly.passed {t u : LockTask L} (h : Orderly R t) (hpass : Passed t u) : Orderly R u := by
  rcases hpass with rfl | ⟨l, mode, hw, rfl⟩
  · exact h
  · simp only [Orderly, hw] at h
    simpa [Orderly, LockTask.granted] using h.2

theorem Orderly.turned {t u : LockTask L} (h : Orderly R t) (hturn : Turned s t u) : Orderly R u := by
  cases hturn with
  | idle hu => rwa [hu]
  | entered l mode todo hw ht hu =>
    simp only [Orderly, hw, ht, Follows] at h
    simpa [hu, Orderly, LockTask.granted] using h.2
  | queued l mode todo hw ht hno hu =>
    simp only [Orderly, hw, ht, Follows] at h
    simpa [hu, Orderly] using h
  | gaveBack l todo hw ht hu =>
    simp only [Orderly, hw, ht, Follows] at h
    have hfilter : (t.held.filter (·.1 ≠ l)).map (·.1) = (t.held.map (·.1)).filter (· ≠ l) := by
      rw [List.filter_map]
      rfl
    simp only [hu, Orderly, hw]
    rwa [hfilter]

theorem turn_sound (h : s.Sound R) (i : Nat) : (s.turn i).Sound R := by
  refine ⟨turn_fair h.fair i, ?_⟩
  intro u hu
  obtain ⟨j, hj⟩ := List.mem_iff_getElem?.1 hu
  obtain ⟨t, ht, hcase⟩ := turn_tasks h.fair i hj
  have horderly := h.orderly t (List.mem_of_getElem? ht)
  split at hcase
  · exact horderly.turned hcase
  · exact horderly.passed hcase

theorem abort_sound (h : s.Sound R) (i : Nat) : (s.abort i).Sound R := by
  refine ⟨abort_fair h.fair i, ?_⟩
  intro u hu
  obtain ⟨j, hj⟩ := List.mem_iff_getElem?.1 hu
  obtain ⟨t, ht, hcase⟩ := abort_tasks h.fair i hj
  split at hcase
  · rw [hcase]
    trivial
  · exact (h.orderly t (List.mem_of_getElem? ht)).passed hcase

theorem start_sound (h : s.Sound R) {program : List (Act L)} (hp : Follows R [] program) : (s.start program).Sound R := by
  refine ⟨start_fair h.fair program, ?_⟩
  intro u hu
  rcases List.mem_append.1 hu with hold | hnew
  · exact h.orderly u hold
  · rw [List.mem_singleton.1 hnew]
    exact hp

theorem empty_sound : (empty : LockState L).Sound R where
  fair := ⟨fun _ _ h => absurd h List.not_mem_nil, fun _ => List.nodup_nil⟩
  orderly := fun _ h => absurd h List.not_mem_nil

end LockState

end Eggchaos.Lib.Locks
