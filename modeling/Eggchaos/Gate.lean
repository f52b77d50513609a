import Eggchaos.Lib.Notify
import Eggchaos.Lib.Runs
/-!
# The epoch gate

`EpochGate::start` and `EpochWaiter::await_epoch` of any number of tasks, each
going from one access of the shared state to the next. Calls come in at any time,
and a start reads whatever instant the clock shows then.

Everyone gets the epoch that was captured first, and no wake-up is lost: once one
start has returned, a waiter is through after three more steps of its own
(`Gate.epoch_shared`).
-/

namespace Eggchaos
open Lib

/-- Where a call of `start` is: before `get_or_init`, before `notify_waiters`, over. -/
inductive StartPhase where
  | capturing
  | notifying (epoch : Nat)
  | returned (epoch : Nat)
deriving DecidableEq, Repr

structure Gate where
  epoch : Option Nat
  notify : Notify
  starts : List StartPhase
  waits : List (WaitPhase Nat)
deriving DecidableEq, Repr

inductive GateOp where
  /-- A call of `start`, and one of `await_epoch`. -/
  | start
  | await
  /-- The next step of a start, at an instant. -/
  | advance (i now : Nat)
  | poll (j : Nat)
deriving DecidableEq, Repr

namespace Gate

def new : Gate := ⟨none, ⟨0⟩, [], []⟩

def advance (g : Gate) (i now : Nat) : Gate :=
  match g.starts[i]? with
  | some .capturing =>
    let epoch := g.epoch.getD now
    { g with epoch := some epoch, starts := g.starts.set i (.notifying epoch) }
  | some (.notifying epoch) => { g with notify := g.notify.notifyWaiters, starts := g.starts.set i (.returned epoch) }
  | some (.returned _) | none => g

def poll (g : Gate) (j : Nat) : Gate :=
  match g.waits[j]? with
  | some w => { g with waits := g.waits.set j (w.step g.notify g.epoch) }
  | none => g

def step (g : Gate) : GateOp → Gate
  | .start => { g with starts := g.starts ++ [.capturing] }
  | .await => { g with waits := g.waits ++ [.asking] }
  | .advance i now => g.advance i now
  | .poll j => g.poll j

/-! ## Steps -/

/-- What is true of a gate whatever its callers do. A waiter goes to sleep only
while there is no epoch, and then nobody has notified yet. -/
structure Inv (g : Gate) : Prop where
  unset : g.epoch = none → g.notify.calls = 0
  start : ∀ p ∈ g.starts, ∀ e, p = .notifying e ∨ p = .returned e → g.epoch = some e
  returned : ∀ e, .returned e ∈ g.starts → 0 < g.notify.calls
  found : ∀ e, .found e ∈ g.waits → g.epoch = some e
  looking : ∀ ticket, .looking ticket ∈ g.waits → ticket ≤ g.notify.calls
  sleeping : ∀ ticket, .sleeping ticket ∈ g.waits → ticket = 0

variable {g : Gate}

theorem inv_new : Inv new := by
  constructor <;> simp [new]

theorem mem_set_of_mem {α : Type} {l : List α} {i : Nat} {a b : α} (h : b ∈ l.set i a) : b = a ∨ b ∈ l :=
  (List.mem_or_eq_of_mem_set h).symm

theorem Inv.advance (h : Inv g) (i now : Nat) : Inv (g.advance i now) := by
  unfold Gate.advance
  cases hi : g.starts[i]? with
  | none => exact h
  | some p =>
    have hmem : p ∈ g.starts := List.mem_of_getElem? hi
    cases p with
    | returned e => exact h
    | notifying e =>
      have he := h.start _ hmem e (.inl rfl)
      refine ⟨fun hnone => absurd (he.symm.trans hnone) (by simp), ?_, ?_, h.found, ?_, h.sleeping⟩
      · intro p hp e' hp'
        rcases mem_set_of_mem hp with rfl | hp
        · rcases hp' with hp' | hp' <;> cases hp'
          exact he
        · exact h.start p hp e' hp'
      · intro _ _
        exact Nat.succ_pos _
      · intro ticket hticket
        exact Nat.le_succ_of_le (h.looking ticket hticket)
    | capturing =>
      have hkeep : ∀ e, g.epoch = some e → some (g.epoch.getD now) = some e := by
        intro e he
        rw [he]
        rfl
      refine ⟨fun hnone => by simp at hnone, ?_, ?_, ?_, h.looking, h.sleeping⟩
      · intro p hp e hp'
        rcases mem_set_of_mem hp with rfl | hp
        · rcases hp' with hp' | hp' <;> cases hp'
          rfl
        · exact hkeep e (h.start p hp e hp')
      · intro e he
        rcases mem_set_of_mem he with he | he
        · cases he
        · exact h.returned e he
      · intro e he
        exact hkeep e (h.found e he)

theorem Inv.poll (h : Inv g) (j : Nat) : Inv (g.poll j) := by
  unfold Gate.poll
  cases hj : g.waits[j]? with
  | none => exact h
  | some w =>
    have hmem : w ∈ g.waits := List.mem_of_getElem? hj
    refine ⟨h.unset, h.start, h.returned, ?_, ?_, ?_⟩
    · intro e he
      rcases mem_set_of_mem he with he | he
      · cases w with
        | asking => cases he
        | found e' =>
          cases he
          exact h.found e hmem
        | looking ticket =>
          cases hepoch : g.epoch with
          | none => simp [WaitPhase.step, hepoch] at he
          | some e' =>
            simp only [WaitPhase.step, hepoch, WaitPhase.found.injEq] at he
            exact congrArg some he.symm
        | sleeping ticket =>
          simp only [WaitPhase.step] at he
          split at he <;> cases he
      · exact h.found e he
    · intro ticket hticket
      rcases mem_set_of_mem hticket with hticket | hticket
      · cases w with
        | asking =>
          cases hticket
          exact Nat.le_refl _
        | found e => cases hticket
        | looking t =>
          simp only [WaitPhase.step] at hticket
          split at hticket <;> cases hticket
        | sleeping t =>
          simp only [WaitPhase.step] at hticket
          split at hticket <;> cases hticket
      · exact h.looking ticket hticket
    · intro ticket hticket
      rcases mem_set_of_mem hticket with hticket | hticket
      · cases w with
        | asking => cases hticket
        | found e => cases hticket
        | looking t =>
          -- It has seen no epoch, so nobody has notified since it asked.
          cases hepoch : g.epoch with
          | some e => simp [WaitPhase.step, hepoch] at hticket
          | none =>
            simp only [WaitPhase.step, hepoch, WaitPhase.sleeping.injEq] at hticket
            have hle := h.looking t hmem
            have hzero := h.unset hepoch
            omega
        | sleeping t =>
          simp only [WaitPhase.step] at hticket
          split at hticket
          · cases hticket
          · cases hticket
            exact h.sleeping ticket hmem
      · exact h.sleeping ticket hticket

theorem Inv.step (h : Inv g) (op : GateOp) : Inv (g.step op) := by
  cases op with
  | advance i now => exact h.advance i now
  | poll j => exact h.poll j
  | start =>
    have hmem : ∀ p, p ∈ g.starts ++ [StartPhase.capturing] → p ∈ g.starts ∨ p = .capturing := by simp
    refine ⟨h.unset, ?_, ?_, h.found, h.looking, h.sleeping⟩
    · intro p hp e hp'
      rcases hmem p hp with hp | rfl
      · exact h.start p hp e hp'
      · rcases hp' with hp' | hp' <;> cases hp'
    · intro e he
      rcases hmem _ he with he | he
      · exact h.returned e he
      · cases he
  | await =>
    have hmem : ∀ w, w ∈ g.waits ++ [WaitPhase.asking] → w ∈ g.waits ∨ w = .asking := by simp
    refine ⟨h.unset, h.start, h.returned, ?_, ?_, ?_⟩
    · intro e he
      exact h.found e ((hmem _ he).resolve_right (by simp))
    · intro ticket hticket
      exact h.looking ticket ((hmem _ hticket).resolve_right (by simp))
    · intro ticket hticket
      exact h.sleeping ticket ((hmem _ hticket).resolve_right (by simp))

theorem inv_run (ops : List GateOp) : Inv (run step new ops) := run_inv Inv (fun _ op h => h.step op) inv_new ops

/-- A captured epoch stays. -/
theorem epoch_step {e : Nat} (h : g.epoch = some e) (op : GateOp) : (g.step op).epoch = some e := by
  cases op with
  | start => exact h
  | await => exact h
  | advance i now =>
    simp only [step, advance]
    split
    · simp [h]
    · exact h
    · exact h
    · exact h
  | poll j =>
    simp only [step, poll]
    split <;> exact h

theorem calls_step (g : Gate) (op : GateOp) : g.notify.calls ≤ (g.step op).notify.calls := by
  cases op with
  | start => exact Nat.le_refl _
  | await => exact Nat.le_refl _
  | advance i now =>
    simp only [step, advance]
    split
    · exact Nat.le_refl _
    · exact Nat.le_succ _
    · exact Nat.le_refl _
    · exact Nat.le_refl _
  | poll j =>
    simp only [step, poll]
    split <;> exact Nat.le_refl _

/-! ## No lost wake-up -/

theorem Inv.released (h : Inv g) {e : Nat} (hepoch : g.epoch = some e) (hcalls : 0 < g.notify.calls) {w : WaitPhase Nat}
    (hw : w ∈ g.waits) : w.Released g.notify g.epoch e := by
  refine ⟨hepoch, ?_, ?_⟩
  · rintro ticket rfl
    rw [h.sleeping ticket hw]
    exact hcalls
  · rintro e' rfl
    exact Option.some.inj ((h.found e' hw).symm.trans hepoch)

/-- A step brings the waiter nearer to its end if it is the waiter's own, and
leaves it where it is otherwise. -/
theorem waits_step (h : Inv g) {e : Nat} (hepoch : g.epoch = some e) (hcalls : 0 < g.notify.calls) {j : Nat}
    {w : WaitPhase Nat} (hw : g.waits[j]? = some w) (op : GateOp) :
    ∃ w', (g.step op).waits[j]? = some w' ∧ w'.distance = w.distance - if op = .poll j then 1 else 0 := by
  have hlt : j < g.waits.length := (List.getElem?_eq_some_iff.1 hw).1
  cases op with
  | start => exact ⟨w, hw, by simp⟩
  | await => exact ⟨w, by rw [step, List.getElem?_append_left hlt, hw], by simp⟩
  | advance i now =>
    refine ⟨w, ?_, by simp⟩
    simp only [step, advance]
    split <;> exact hw
  | poll k =>
    by_cases hk : k = j
    · subst hk
      refine ⟨w.step g.notify g.epoch, ?_, ?_⟩
      · simp only [step, poll, hw]
        exact List.getElem?_set_self hlt
      · rw [if_pos rfl]
        exact WaitPhase.distance_step (h.released hepoch hcalls (List.mem_of_getElem? hw))
    · refine ⟨w, ?_, by simp [hk]⟩
      simp only [step, poll]
      split
      · exact (List.getElem?_set_ne hk).trans hw
      · exact hw

theorem waits_run {e : Nat} (ops : List GateOp) {j : Nat} (h : Inv g) (hepoch : g.epoch = some e)
    (hcalls : 0 < g.notify.calls) {w : WaitPhase Nat} (hw : g.waits[j]? = some w)
    (hpolls : w.distance ≤ ops.count (.poll j)) : (run step g ops).waits[j]? = some (.found e) := by
  induction ops generalizing g w with
  | nil =>
    have hrel := h.released hepoch hcalls (List.mem_of_getElem? hw)
    rw [run_nil, hw, hrel.found_of_distance (Nat.le_zero.1 hpolls)]
  | cons op ops ih =>
    obtain ⟨w', hw', hdist⟩ := waits_step h hepoch hcalls hw op
    refine ih (h.step op) (epoch_step hepoch op) (Nat.lt_of_lt_of_le hcalls (calls_step g op)) hw' ?_
    rw [List.count_cons] at hpolls
    rw [hdist]
    by_cases hop : op = .poll j
    · rw [if_pos (by simpa using hop)] at hpolls
      rw [if_pos hop]
      omega
    · rw [if_neg (by simpa using hop)] at hpolls
      rw [if_neg hop]
      omega

/-- Whatever the order of the calls: starts and waiters that are through have one
epoch, which never changes again; nobody is through before it is captured; and once
a start has returned every waiter, asleep or not, is through after three steps of
its own. -/
theorem epoch_shared (ops later : List GateOp) :
    let g := run step new ops
    let g' := run step new (ops ++ later)
    (∀ e, .returned e ∈ g.starts ∨ .found e ∈ g.waits → g.epoch = some e ∧ g'.epoch = some e) ∧
    ∀ e, .returned e ∈ g.starts → ∀ j < g.waits.length, 3 ≤ later.count (.poll j) → g'.waits[j]? = some (.found e) := by
  have hinv := inv_run ops
  have hepoch : ∀ e, .returned e ∈ (run step new ops).starts ∨ .found e ∈ (run step new ops).waits →
      (run step new ops).epoch = some e := by
    rintro e (he | he)
    · exact hinv.start _ he e (.inr rfl)
    · exact hinv.found e he
  refine ⟨?_, ?_⟩
  · intro e he
    refine ⟨hepoch e he, ?_⟩
    rw [run_append]
    exact run_inv (fun g : Gate => g.epoch = some e) (fun _ op h => epoch_step h op) (hepoch e he) later
  · intro e he j hj hpolls
    rw [run_append]
    refine waits_run later hinv (hepoch e (.inl he)) (hinv.returned e he) (List.getElem?_eq_getElem hj) ?_
    refine Nat.le_trans ?_ hpolls
    cases (run step new ops).waits[j] <;> simp [WaitPhase.distance]

end Gate
end Eggchaos
