import Eggchaos.Lib.Machine
import Mathlib.Tactic.Linarith
import Mathlib.Tactic.Ring
/-!
# Rate bounds on release schedules

A schedule is what a shaper answers: packets in call order, each with its
release instant. `Conforms burst rate` says that no window of it carries more
than one burst plus the sustained rate over the window's length.

`Paid` is the credit argument for it: a balance in nano-bytes (a byte is `10^9`
of them) that a release spends, that grows by `rate` for every nanosecond
between releases and that never exceeds the burst. A shaper that can exhibit
such a balance conforms.
-/

namespace Eggchaos.Lib

structure Release where
  size : Nat
  instant : Nat
deriving DecidableEq, Repr

def totalSize (s : List Release) : Nat := (s.map (·.size)).sum

@[simp] theorem totalSize_nil : totalSize [] = 0 := rfl
@[simp] theorem totalSize_cons (r : Release) (s : List Release) : totalSize (r :: s) = r.size + totalSize s := by
  simp [totalSize]

/-- For every packet `a` and every later packet `b` of the schedule, the packets
after `a` up to `b` whose release falls in `(a.instant, b.instant]` are at most
`burst` bytes and `rate` bytes for every second of that interval. -/
def Conforms (burst rate : Nat) (s : List Release) : Prop :=
  ∀ before a mid b after, s = before ++ a :: (mid ++ b :: after) →
    10 ^ 9 * totalSize ((mid ++ [b]).filter (fun r => a.instant < r.instant ∧ r.instant ≤ b.instant)) ≤
      10 ^ 9 * burst + rate * (b.instant - a.instant)

/-- The releases can be paid for from `balance` nano-bytes held at `cursor`. -/
def Paid (burst rate : Nat) : Nat → Nat → List Release → Prop
  | _, _, [] => True
  | balance, cursor, r :: rest => cursor ≤ r.instant ∧ ∃ left, left ≤ 10 ^ 9 * burst ∧
      10 ^ 9 * r.size + left ≤ balance + rate * (r.instant - cursor) ∧ Paid burst rate left r.instant rest

variable {burst rate : Nat}

theorem totalSize_filter_le (p : Release → Bool) (s : List Release) : totalSize (s.filter p) ≤ totalSize s := by
  induction s with
  | nil => simp
  | cons r s ih => by_cases h : p r <;> simp [h] <;> omega

/-- What is released up to `b` is covered by the balance and the rate. -/
theorem Paid.total_le {balance cursor mid b after} (h : Paid burst rate balance cursor (mid ++ b :: after)) :
    cursor ≤ b.instant ∧
      10 ^ 9 * totalSize (mid ++ [b]) ≤ balance + rate * (b.instant - cursor) := by
  induction mid generalizing balance cursor with
  | nil =>
    obtain ⟨hc, left, -, hpay, -⟩ := h
    refine ⟨hc, ?_⟩
    simp only [List.nil_append, totalSize_cons, totalSize_nil]
    linarith
  | cons r mid ih =>
    obtain ⟨hc, left, -, hpay, hrest⟩ := h
    obtain ⟨hb, hsum⟩ := ih hrest
    refine ⟨hc.trans hb, ?_⟩
    have hsplit : b.instant - cursor = (r.instant - cursor) + (b.instant - r.instant) := by omega
    rw [List.cons_append, totalSize_cons, hsplit, Nat.mul_add]
    linarith

/-- A balance left after `before` pays for the rest. -/
theorem Paid.drop {balance cursor before a rest} (h : Paid burst rate balance cursor (before ++ a :: rest)) :
    ∃ left, left ≤ 10 ^ 9 * burst ∧ Paid burst rate left a.instant rest := by
  induction before generalizing balance cursor with
  | nil =>
    obtain ⟨-, left, hleft, -, hrest⟩ := h
    exact ⟨left, hleft, hrest⟩
  | cons r before ih =>
    obtain ⟨-, left, -, -, hrest⟩ := h
    exact ih hrest

/-- Between two releases of a schedule that can be paid for goes no more than a
burst and the rate over the time between them. -/
theorem Paid.window_le {balance cursor before a mid b after}
    (h : Paid burst rate balance cursor (before ++ a :: (mid ++ b :: after))) :
    a.instant ≤ b.instant ∧ 10 ^ 9 * totalSize (mid ++ [b]) ≤ 10 ^ 9 * burst + rate * (b.instant - a.instant) := by
  obtain ⟨left, hleft, hrest⟩ := h.drop
  obtain ⟨hle, hsum⟩ := hrest.total_le
  exact ⟨hle, hsum.trans (Nat.add_le_add_right hleft _)⟩

/-- A schedule that can be paid for conforms. -/
theorem Paid.conforms {balance cursor s} (h : Paid burst rate balance cursor s) : Conforms burst rate s := by
  rintro before a mid b after rfl
  obtain ⟨-, hsum⟩ := h.window_le
  exact (Nat.mul_le_mul_left _ (totalSize_filter_le _ _)).trans hsum

end Eggchaos.Lib
