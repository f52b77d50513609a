import Mathlib.Data.List.Basic
/-!
# Waiting for a value that is set once

A `Notify` wakes whoever has asked to be woken before its next call. The wait loop
asks first, then looks for the value, then sleeps; so a value that is set, and
notified after it is set, is found in a bounded number of the loop's own steps
(`WaitPhase.distance_step`), whatever happens between them.
-/

namespace Eggchaos.Lib

/-- How often all waiters were notified. -/
structure Notify where
  calls : Nat
deriving DecidableEq, Repr

namespace Notify

/-- What is asked now is woken by every later call. -/
def notified (n : Notify) : Nat := n.calls

def notifyWaiters (n : Notify) : Notify := ⟨n.calls + 1⟩

def woken (n : Notify) (ticket : Nat) : Bool := ticket < n.calls

end Notify

inductive WaitPhase (V : Type) where
  | asking
  | looking (ticket : Nat)
  | sleeping (ticket : Nat)
  | found (value : V)
deriving DecidableEq, Repr

namespace WaitPhase
variable {V : Type}

/-- One step of the loop; a sleeping one stays until it is woken. -/
def step (n : Notify) (value : Option V) : WaitPhase V → WaitPhase V
  | asking => looking n.notified
  | looking ticket =>
    match value with
    | some v => found v
    | none => sleeping ticket
  | sleeping ticket => if n.woken ticket then asking else sleeping ticket
  | found v => found v

/-- How many steps the loop has still to make when nothing holds it up. -/
def distance : WaitPhase V → Nat
  | found _ => 0
  | looking _ => 1
  | asking => 2
  | sleeping _ => 3

/-- The value is there, and whoever sleeps has been woken. -/
def Released (n : Notify) (value : Option V) (v : V) (w : WaitPhase V) : Prop :=
  value = some v ∧ (∀ ticket, w = sleeping ticket → ticket < n.calls) ∧ ∀ v', w = found v' → v' = v

variable {n : Notify} {value : Option V} {v : V} {w : WaitPhase V}

theorem distance_step (h : Released n value v w) : (w.step n value).distance = w.distance - 1 := by
  obtain ⟨rfl, hsleep, _⟩ := h
  cases w with
  | asking => rfl
  | looking t => rfl
  | sleeping t => simp [step, Notify.woken, hsleep t rfl, distance]
  | found v' => rfl

theorem Released.found_of_distance (h : Released n value v w) (hdone : w.distance = 0) : w = found v := by
  cases w with
  | found v' => rw [h.2.2 v' rfl]
  | asking | looking t | sleeping t => simp [distance] at hdone

end WaitPhase

end Eggchaos.Lib
