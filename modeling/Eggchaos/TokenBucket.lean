import Eggchaos.Plan
import Eggchaos.Lib.RateBound
import Eggchaos.Lib.Runs
/-!
# The bandwidth token bucket

`TokenBucket` of `engine.rs`: microtokens (a byte is `10^6` of them), refilled
from elapsed time up to one burst, and consumed by segments. A segment the
tokens do not cover is scheduled into the future: the bucket is emptied and the
release moves to `now` plus the time the missing tokens take.

The tokens that accrue during that wait are the ones it was computed from, yet
they are credited again to the next segment: `cursor` records the latest
release and nothing reads it. `schedule_conforms` says which calls keep the
configured rate all the same, and `burst_credited_again` is a run that
exceeds it.
-/

namespace Eggchaos
open Lib

structure TokenBucket where
  rate : Nat
  capacityMicro : Nat
  tokensMicro : Nat
  last : Nat
  cursor : Nat
deriving DecidableEq, Repr

namespace TokenBucket

def new (rate burst now : Nat) : TokenBucket where
  rate
  capacityMicro := 1000000 * burst
  tokensMicro := 1000000 * burst
  last := now
  cursor := now

def refill (b : TokenBucket) (now : Nat) : TokenBucket :=
  let elapsedNanos := now - b.last
  if 0 < elapsedNanos then
    let earned := satMul128 elapsedNanos b.rate / 1000
    { b with tokensMicro := min (satAdd128 b.tokensMicro earned) b.capacityMicro, last := now }
  else b

/-- `wait_nanos` of `consume`: the time `deficit` microtokens take at the rate,
rounded up and clamped to `u64::MAX`. -/
def waitNanos (rate deficit : Nat) : Nat :=
  min (satAdd128 (satMul128 1000 deficit) (rate - 1) / rate) u64Max

/-- Schedule `len` bytes: the release, the throttle delay in milliseconds and
the bucket after it. -/
def consume (b : TokenBucket) (len now earliest : Nat) : Nat × Nat × TokenBucket :=
  let b := b.refill now
  let need := satMul128 1000000 len
  let base := max earliest now
  if need ≤ b.tokensMicro then
    (base, 0, { b with tokensMicro := b.tokensMicro - need, cursor := max b.cursor base })
  else
    let deficit := need - b.tokensMicro
    let wait := waitNanos b.rate deficit
    let release := max base ((checkedAdd now wait).getD now)
    let throttledMs := min (satAdd128 (release - max earliest now) 999999 / 1000000) u64Max
    (release, throttledMs, { b with tokensMicro := 0, cursor := max b.cursor release })

/-! ## Runs of one bucket -/

/-- The arguments of one `consume`; `len` is a `usize`. -/
structure Call where
  len : Nat
  now : Nat
  earliest : Nat
  len_le : len ≤ u64Max

def step (b : TokenBucket) (call : Call) : TokenBucket := (b.consume call.len call.now call.earliest).2.2

/-- The releases of a run of calls, in call order. -/
def schedule : TokenBucket → List Call → List Release
  | _, [] => []
  | b, call :: calls => ⟨call.len, (b.consume call.len call.now call.earliest).1⟩ :: schedule (b.step call) calls

/-- The tokens a call at `now` finds. -/
def available (b : TokenBucket) (now : Nat) : Nat := (b.refill now).tokensMicro

/-- The missing tokens of the call take a time that `consume` can add to `now`:
no more than `u64::MAX` nanoseconds, and no instant past the last. -/
def WaitFits (b : TokenBucket) (call : Call) : Prop :=
  10 ^ 9 * call.len ≤ 1000 * b.available call.now + b.rate * min u64Max (maxInstant - call.now)

/-- The call does not spend tokens that an earlier release was computed from:

- no release lies beyond the previous call, or
- the call is held back (`earliest`) by as much as the latest release lies
  beyond the previous call, and the tokens it finds together with those that
  accrue in the rest of its own delay cover it, or
- a whole burst has accrued since the latest release.

The clock does not go back, and the wait is representable. -/
def Unborrowed (b : TokenBucket) (call : Call) : Prop :=
  b.last ≤ call.now ∧ b.WaitFits call ∧
    (b.cursor ≤ b.last ∨
      (call.now + (b.cursor - b.last) ≤ call.earliest ∧
        10 ^ 9 * call.len ≤ 1000 * b.available call.now +
          b.rate * (call.earliest - (call.now + (b.cursor - b.last)))) ∨
      (b.cursor ≤ call.now ∧ 1000 * b.capacityMicro ≤ b.rate * (call.now - b.cursor)))

instance (b : TokenBucket) (call : Call) : Decidable (b.Unborrowed call) :=
  inferInstanceAs (Decidable (b.last ≤ call.now ∧ 10 ^ 9 * call.len ≤ _ ∧ (_ ∨ (_ ∧ _) ∨ _ ∧ _)))

/-- What `new` sets up and every call keeps. -/
structure Inv (rate burst : Nat) (b : TokenBucket) : Prop where
  rate_eq : b.rate = rate
  capacity_eq : b.capacityMicro = 1000000 * burst
  tokens_le : b.tokensMicro ≤ b.capacityMicro
  last_le : b.last ≤ b.cursor

/-! ## What one call does -/

theorem available_le (b : TokenBucket) (now : Nat) (h : b.tokensMicro ≤ b.capacityMicro) :
    b.available now ≤ b.capacityMicro := by
  simp only [available, refill]
  split
  · exact Nat.min_le_right _ _
  · exact h

/-- A refill earns at most the rate over the elapsed time. -/
theorem available_earned (b : TokenBucket) (now : Nat) :
    1000 * b.available now ≤ 1000 * b.tokensMicro + b.rate * (now - b.last) := by
  simp only [available, refill]
  split
  · have hearned : 1000 * (satMul128 (now - b.last) b.rate / 1000) ≤ b.rate * (now - b.last) :=
      calc 1000 * (satMul128 (now - b.last) b.rate / 1000)
          ≤ satMul128 (now - b.last) b.rate := Nat.mul_div_le _ _
        _ ≤ (now - b.last) * b.rate := Nat.min_le_left _ _
        _ = b.rate * (now - b.last) := Nat.mul_comm _ _
    have hsum : min (satAdd128 b.tokensMicro (satMul128 (now - b.last) b.rate / 1000)) b.capacityMicro ≤
        b.tokensMicro + satMul128 (now - b.last) b.rate / 1000 :=
      (Nat.min_le_left _ _).trans (Nat.min_le_left _ _)
    linarith [Nat.mul_le_mul_left 1000 hsum]
  · simp

theorem refill_last (b : TokenBucket) {now : Nat} (h : b.last ≤ now) : (b.refill now).last = now := by
  simp only [refill]
  split
  · rfl
  · omega

theorem refill_rate (b : TokenBucket) (now : Nat) : (b.refill now).rate = b.rate := by
  simp only [refill]; split <;> rfl

theorem refill_capacity (b : TokenBucket) (now : Nat) : (b.refill now).capacityMicro = b.capacityMicro := by
  simp only [refill]; split <;> rfl

theorem refill_cursor (b : TokenBucket) (now : Nat) : (b.refill now).cursor = b.cursor := by
  simp only [refill]; split <;> rfl

/-- The missing tokens take `waitNanos`, and no shorter time. -/
theorem waitNanos_spec {rate deficit bound : Nat} (hrate : 0 < rate) (hrate' : rate ≤ u64Max)
    (hdeficit : deficit ≤ 1000000 * u64Max) (hbound : bound ≤ u64Max) (h : 1000 * deficit ≤ rate * bound) :
    1000 * deficit ≤ rate * waitNanos rate deficit ∧
      ∀ s, 1000 * deficit ≤ rate * s → waitNanos rate deficit ≤ s := by
  have hexact : satAdd128 (satMul128 1000 deficit) (rate - 1) = 1000 * deficit + (rate - 1) := by
    have hlarge : 1000 * (1000000 * u64Max) + u64Max ≤ u128Max := by decide
    have hmul : 1000 * deficit ≤ 1000 * (1000000 * u64Max) := Nat.mul_le_mul_left _ hdeficit
    rw [satMul128, Nat.min_eq_left (by linarith), satAdd128, Nat.min_eq_left]
    have : rate - 1 ≤ u64Max := (Nat.sub_le _ _).trans hrate'
    linarith
  have hceil : ∀ s, 1000 * deficit ≤ rate * s → (1000 * deficit + (rate - 1)) / rate ≤ s := by
    intro s hs
    rw [Nat.div_le_iff_le_mul_add_pred hrate]
    exact Nat.add_le_add_right hs _
  have hwait : waitNanos rate deficit = (1000 * deficit + (rate - 1)) / rate := by
    rw [waitNanos, hexact, Nat.min_eq_left ((hceil bound h).trans hbound)]
  refine ⟨?_, fun s hs => hwait ▸ hceil s hs⟩
  rw [hwait]
  have hmod := Nat.div_add_mod (1000 * deficit + (rate - 1)) rate
  have hlt := Nat.mod_lt (1000 * deficit + (rate - 1)) hrate
  generalize rate * ((1000 * deficit + (rate - 1)) / rate) = paid at *
  have : rate - 1 + 1 = rate := Nat.sub_add_cancel hrate
  linarith

theorem fits_instant {now wait bound last : Nat} (hpos : 0 < wait) (h : wait ≤ min bound (last - now)) :
    now + wait ≤ last := by
  omega

/-- One call: it is released after some `wait` past `now`, if not held back
longer, and the tokens it found plus the rate over `wait` pay for the bytes and
for the tokens it leaves. The wait is no longer than the call needs. -/
theorem consume_spec (b : TokenBucket) (call : Call) (hrate : 0 < b.rate) (hrate' : b.rate ≤ u64Max)
    (hfits : b.WaitFits call) :
    ∃ wait, (b.consume call.len call.now call.earliest).1 = max (max call.earliest call.now) (call.now + wait) ∧
      10 ^ 9 * call.len + 1000 * (b.step call).tokensMicro ≤ 1000 * b.available call.now + b.rate * wait ∧
      (∀ s, 10 ^ 9 * call.len ≤ 1000 * b.available call.now + b.rate * s → wait ≤ s) ∧
      (b.step call).tokensMicro ≤ b.available call.now ∧
      (b.step call).cursor = max b.cursor (b.consume call.len call.now call.earliest).1 := by
  have hneed : satMul128 1000000 call.len = 1000000 * call.len := by
    have hlarge : 1000000 * u64Max ≤ u128Max := by decide
    exact Nat.min_eq_left ((Nat.mul_le_mul_left _ call.len_le).trans hlarge)
  have hrefill := b.refill_rate call.now
  have hcursor := b.refill_cursor call.now
  simp only [step, consume, hneed, hrefill, hcursor, available, WaitFits] at hfits ⊢
  generalize (b.refill call.now).tokensMicro = found at *
  by_cases hcov : 1000000 * call.len ≤ found
  · refine ⟨0, ?_, ?_, fun _ _ => Nat.zero_le _, ?_, ?_⟩
    · simp [hcov]
    · simp only [if_pos hcov]
      have := Nat.sub_add_cancel hcov
      linarith
    · simp [hcov]
    · simp [hcov]
  · simp only [if_neg hcov]
    -- The deficit branch: everything found is spent and the rest is waited for.
    have hsplit : 1000000 * call.len - found + found = 1000000 * call.len :=
      Nat.sub_add_cancel (Nat.le_of_lt (not_le.1 hcov))
    have hmissing : 0 < 1000000 * call.len - found := Nat.sub_pos_of_lt (not_le.1 hcov)
    have hdeficit : 1000000 * call.len - found ≤ 1000000 * u64Max :=
      (Nat.sub_le _ _).trans (Nat.mul_le_mul_left _ call.len_le)
    have hpaid : 1000 * (1000000 * call.len - found) ≤ b.rate * min u64Max (maxInstant - call.now) := by linarith
    obtain ⟨hcovers, hleast⟩ := waitNanos_spec hrate hrate' hdeficit (Nat.min_le_left _ _) hpaid
    have hwait := hleast _ hpaid
    have hpos : 0 < waitNanos b.rate (1000000 * call.len - found) := by
      rcases Nat.eq_zero_or_pos (waitNanos b.rate (1000000 * call.len - found)) with h0 | h0
      · rw [h0] at hcovers; linarith
      · exact h0
    generalize waitNanos b.rate (1000000 * call.len - found) = wait at *
    have hinst : call.now + wait ≤ maxInstant := fits_instant hpos hwait
    refine ⟨wait, ?_, ?_, fun s hs => hleast s (by linarith), Nat.zero_le _, ?_⟩
    · simp [checkedAdd, hinst]
    · linarith
    · simp

theorem inv_new (rate burst : NonZeroU64) (now : Nat) : Inv rate.get burst.get (new rate.get burst.get now) where
  rate_eq := rfl
  capacity_eq := rfl
  tokens_le := le_refl _
  last_le := le_refl _

theorem step_frame (b : TokenBucket) (call : Call) :
    (b.step call).rate = b.rate ∧ (b.step call).capacityMicro = b.capacityMicro ∧
      (b.step call).last = (b.refill call.now).last := by
  simp only [step, consume]
  split <;> simp [refill_rate, refill_capacity]

/-- Between `since` and `now`, and for `wait` more, the release gains on a cursor
that is at most `held` ahead. -/
theorem gain_le (cursor held : Nat) {now since wait release : Nat} (hs : since ≤ now) (hc : cursor ≤ since + held)
    (hr : now + held + wait ≤ release) : cursor ≤ release ∧ (now - since) + wait ≤ release - cursor := by
  omega

/-- An unborrowed call: its release is paid for by the tokens the previous call
left and the rate since the latest release. -/
theorem step_paid {rate burst : NonZeroU64} {b : TokenBucket} {call : Call} (hi : Inv rate.get burst.get b)
    (h : b.Unborrowed call) :
    Inv rate.get burst.get (b.step call) ∧ b.cursor ≤ (b.consume call.len call.now call.earliest).1 ∧
      (b.step call).cursor = (b.consume call.len call.now call.earliest).1 ∧
      10 ^ 9 * call.len + 1000 * (b.step call).tokensMicro ≤
        1000 * b.tokensMicro + rate.get * ((b.consume call.len call.now call.earliest).1 - b.cursor) := by
  obtain ⟨hlast, hfits, hwhen⟩ := h
  obtain ⟨hr, hc, ht, hl⟩ := hi
  obtain ⟨wait, hrel, hpay, hleast, hleft, hcur⟩ :=
    consume_spec b call (hr ▸ rate.pos) (hr ▸ rate.le_max) hfits
  obtain ⟨hr', hc', hl'⟩ := b.step_frame call
  have hearn := b.available_earned call.now
  have hcap := b.available_le call.now ht
  have hheld : call.earliest ≤ (b.consume call.len call.now call.earliest).1 :=
    hrel ▸ (Nat.le_max_left _ _).trans (Nat.le_max_left _ _)
  have hwaited : call.now + wait ≤ (b.consume call.len call.now call.earliest).1 := hrel ▸ Nat.le_max_right _ _
  generalize (b.consume call.len call.now call.earliest).1 = release at *
  rw [hr] at hearn hpay hwhen hleast
  have hkey : b.cursor ≤ release ∧ 10 ^ 9 * call.len + 1000 * (b.step call).tokensMicro ≤
      1000 * b.tokensMicro + rate.get * (release - b.cursor) := by
    rcases hwhen with hw | ⟨hback, hcover⟩ | ⟨hidle, hburst⟩
    · obtain ⟨hle, hgain⟩ := gain_le b.cursor 0 hlast hw hwaited
      have := Nat.mul_le_mul_left rate.get hgain
      rw [Nat.mul_add] at this
      exact ⟨hle, by linarith⟩
    · -- Held back: the delay outlasts both the outstanding one and the call's own wait.
      have hown : call.now + (b.cursor - b.last) + wait ≤ release :=
        (Nat.add_le_of_le_sub' hback (hleast _ hcover)).trans hheld
      obtain ⟨hle, hgain⟩ := gain_le b.cursor _ hlast (Nat.le_of_eq (Nat.add_sub_of_le hl).symm) hown
      have := Nat.mul_le_mul_left rate.get hgain
      rw [Nat.mul_add] at this
      exact ⟨hle, by linarith⟩
    · obtain ⟨hle, hgain⟩ := gain_le b.cursor 0 hidle (Nat.le_refl _) hwaited
      have := Nat.mul_le_mul_left rate.get hgain
      rw [Nat.mul_add] at this
      have := Nat.mul_le_mul_left 1000 hcap
      exact ⟨hle, by linarith⟩
  refine ⟨⟨hr'.trans hr, hc'.trans hc, hc' ▸ hleft.trans hcap, ?_⟩, hkey.1, ?_, hkey.2⟩
  · rw [hl', refill_last b hlast, hcur]
    exact ((Nat.le_add_right _ _).trans hwaited).trans (Nat.le_max_right _ _)
  · rw [hcur, Nat.max_eq_right hkey.1]

/-- The schedule of an unborrowed run is paid for from the tokens at its start. -/
theorem schedule_paid {rate burst : NonZeroU64} {b : TokenBucket} {calls : List Call}
    (hi : Inv rate.get burst.get b) (h : Along step Unborrowed b calls) :
    Paid burst.get rate.get (1000 * b.tokensMicro) b.cursor (schedule b calls) := by
  induction calls generalizing b with
  | nil => trivial
  | cons call calls ih =>
    obtain ⟨hi', hle, hcur, hpay⟩ := step_paid hi h.1
    refine ⟨hle, 1000 * (b.step call).tokensMicro, ?_, hpay, hcur ▸ ih hi' h.2⟩
    have := Nat.mul_le_mul_left 1000 hi'.tokens_le
    rw [hi'.capacity_eq] at this
    linarith

/-- In every run of a bucket whose calls all are unborrowed, the released bytes
never exceed one burst plus the sustained rate. -/
theorem schedule_conforms (rate burst : NonZeroU64) (start : Nat) (calls : List Call)
    (h : Along step Unborrowed (new rate.get burst.get start) calls) :
    Conforms burst.get rate.get (schedule (new rate.get burst.get start) calls) :=
  (schedule_paid (inv_new rate burst start) h).conforms

/-- A burst at 0, a second one that has to wait a second for its tokens, and a
third that comes when both are released and a whole burst has accrued. -/
theorem schedule_conforms_idle :
    Conforms 100 100 (schedule (new 100 100 0)
      [⟨100, 0, 0, by decide⟩, ⟨100, 0, 0, by decide⟩, ⟨100, 2000000000, 0, by decide⟩]) :=
  schedule_conforms ⟨100, by decide, by decide⟩ ⟨100, by decide, by decide⟩ 0 _ (by decide)

/-- Four bursts of 100 bytes at one instant, at 100 bytes a second: the second,
third and fourth are each released after one second, 300 bytes in a second that
may carry 200. -/
theorem burst_credited_again :
    ¬ ∀ (rate burst : NonZeroU64) (start : Nat) (calls : List Call),
        ((start :: calls.map (·.now)).Pairwise (· ≤ ·)) →
        Conforms burst.get rate.get (schedule (new rate.get burst.get start) calls) := by
  intro h
  let call : Call := ⟨100, 0, 0, by decide⟩
  have hc := h ⟨100, by decide, by decide⟩ ⟨100, by decide, by decide⟩ 0 [call, call, call, call] (by decide)
    [] ⟨100, 0⟩ [⟨100, 1000000000⟩, ⟨100, 1000000000⟩] ⟨100, 1000000000⟩ [] (by decide)
  exact absurd hc (by decide)

end TokenBucket

end Eggchaos
