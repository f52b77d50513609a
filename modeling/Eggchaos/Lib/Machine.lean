import Mathlib.Data.Int.Log
import Mathlib.Data.Rat.Floor
import Mathlib.Order.Monotone.Basic
/-!
# Machine numbers, instants and clocks

Unsigned machine integers are naturals with the saturating operations written
out. Instants and durations are naturals too, in nanoseconds; an instant counts
from the start of the monotonic clock. A `Clock` is everything later readings
of the monotonic clock will return: a program that reads it takes the head and
goes on with the rest, so two readings inside one call may differ.

A binary64 value is the rational number it denotes; `roundToBinary64` is the
rounding of an exact result.
-/

namespace Eggchaos.Lib

/-! ## Saturating integers -/

def u64Max : Nat := 2 ^ 64 - 1
def u128Max : Nat := 2 ^ 128 - 1

theorem one_le_u64Max : 1 ≤ u64Max := by decide
theorem two_le_u64Max : 2 ≤ u64Max := by decide

/-- A count as a `u64` that saturates holds it. -/
def clampU64 (n : Nat) : Nat := min n u64Max

/-- `u64::saturating_add`. -/
def satAdd (a b : Nat) : Nat := clampU64 (a + b)

/-- `u64::saturating_mul`. -/
def satMul (a b : Nat) : Nat := clampU64 (a * b)

/-- `u128::saturating_add`. -/
def satAdd128 (a b : Nat) : Nat := min (a + b) u128Max

/-- `u128::saturating_mul`. -/
def satMul128 (a b : Nat) : Nat := min (a * b) u128Max

theorem clampU64_of_le {n : Nat} (h : n ≤ u64Max) : clampU64 n = n := Nat.min_eq_left h

/-- Adding to a saturated count is saturating the sum. -/
theorem satAdd_clamp (a b : Nat) : satAdd (clampU64 a) b = clampU64 (a + b) := by
  simp only [satAdd, clampU64]; omega

theorem satAdd_clamps (a b : Nat) : satAdd (clampU64 a) (clampU64 b) = clampU64 (a + b) := by
  simp only [satAdd, clampU64]; omega

/-! ## Instants -/

/-- The last representable instant: `i64::MAX` seconds and 999999999 ns. -/
def maxInstant : Nat := 2 ^ 63 * 10 ^ 9 - 1

/-- The longest `Duration`: `u64::MAX` seconds and 999999999 ns. -/
def maxDuration : Nat := 2 ^ 64 * 10 ^ 9 - 1

/-- `Instant::checked_add`. -/
def checkedAdd (t d : Nat) : Option Nat :=
  if t + d ≤ maxInstant then some (t + d) else none

/-- `Duration::saturating_add`. -/
def durationSatAdd (a b : Nat) : Nat := min (a + b) maxDuration

/-- What is left of the monotonic clock: the `k`-th coming reading. -/
structure Clock where
  reading : Nat → Nat
  mono : Monotone reading

namespace Clock

/-- `Instant::now()`, the next reading. -/
def now (c : Clock) : Nat := c.reading 0

/-- The clock after one reading. -/
def tick (c : Clock) : Clock where
  reading n := c.reading (n + 1)
  mono _ _ h := c.mono (Nat.succ_le_succ h)

/-- A clock that stands still, as the paused clock of the tests does. -/
def still (t : Nat) : Clock where
  reading _ := t
  mono _ _ _ := le_refl t

/-- A clock that stands at zero for `k` readings and at `t` from then on. -/
def jump (k t : Nat) : Clock where
  reading n := if n < k then 0 else t
  mono m n h := by
    simp only
    split
    · exact Nat.zero_le _
    · rw [if_neg (by omega)]

@[simp] theorem now_still (t : Nat) : (still t).now = t := rfl
@[simp] theorem tick_still (t : Nat) : (still t).tick = still t := rfl

end Clock

/-! ## Binary64 -/

/-- The nearest integer, ties to even. -/
def roundHalfEven (q : ℚ) : ℤ :=
  let below := ⌊q⌋
  let rest := q - below
  if rest < 1 / 2 then below
  else if 1 / 2 < rest then below + 1
  else if below % 2 = 0 then below else below + 1

/-- The binary64 value nearest to a non-negative rational far below the
overflow threshold: 53 significant bits, subnormals from `2 ^ (-1074)`. -/
def roundToBinary64 (q : ℚ) : ℚ :=
  if q ≤ 0 then 0
  else
    let ulp : ℚ := 2 ^ max (Int.log 2 q - 52) (-1074)
    roundHalfEven (q / ulp) * ulp

end Eggchaos.Lib
