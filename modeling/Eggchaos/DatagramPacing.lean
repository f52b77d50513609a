import Eggchaos.DatagramRuns
import Eggchaos.Lib.RateBound
/-!
# Pacing of datagrams

A bandwidth stage releases a whole datagram at `now` plus what `bandwidth_delay`
answers. A datagram the tokens do not cover moves the bucket's own clock to its
release, so what accrues until then is spent once: `updated` is the latest
release, and the tokens beside it are a balance in the sense of `Paid`.

`pacing_conforms` is the rate bound over whole runs of one bucket.
-/

namespace Eggchaos
open Lib

/-- The arguments of one `bandwidth_delay`: a datagram's length fits a UDP
payload. -/
structure PacedCall where
  now : Nat
  size : Nat
  size_le : size ≤ 65535

namespace DatagramDirectionEngine

/-- The releases of a run of calls on one bucket, in call order. `admit` adds the
delay to `now`, which panics past the last instant: the run ends there. -/
def releases (id : String) (rate burst : NonZeroU64) : DatagramDirectionEngine → List PacedCall → List Release
  | _, [] => []
  | e, call :: calls =>
    let (delay, e) := e.bandwidthDelay id call.now call.size rate.get burst.get
    match checkedAdd call.now delay with
    | some instant => ⟨call.size, instant⟩ :: releases id rate burst e calls
    | none => []

/-- The bucket a call at `now` finds. -/
def bucketAt (e : DatagramDirectionEngine) (id : String) (burst now : Nat) : Bucket :=
  (e.buckets id).getD ⟨burst, now⟩

/-! ## One call -/

/-- Tokens after a refill: what there was, and no more than accrued. -/
theorem refill_le (tokens elapsed rate burst : Nat) :
    10 ^ 9 * min (satAdd tokens (min (satMul128 elapsed rate / 1000000000) u64Max)) burst ≤
      10 ^ 9 * tokens + rate * elapsed := by
  have hearned : 10 ^ 9 * (satMul128 elapsed rate / 1000000000) ≤ rate * elapsed :=
    calc 10 ^ 9 * (satMul128 elapsed rate / 1000000000)
        ≤ satMul128 elapsed rate := Nat.mul_div_le _ _
      _ ≤ elapsed * rate := Nat.min_le_left _ _
      _ = rate * elapsed := Nat.mul_comm _ _
  have hsum : min (satAdd tokens (min (satMul128 elapsed rate / 1000000000) u64Max)) burst ≤
      tokens + satMul128 elapsed rate / 1000000000 :=
    calc min (satAdd tokens (min (satMul128 elapsed rate / 1000000000) u64Max)) burst
        ≤ tokens + min (satMul128 elapsed rate / 1000000000) u64Max := (Nat.min_le_left _ _).trans (Nat.min_le_left _ _)
      _ ≤ tokens + satMul128 elapsed rate / 1000000000 := Nat.add_le_add_left (Nat.min_le_left _ _) _
  linarith [Nat.mul_le_mul_left (10 ^ 9) hsum]

/-- The service time of a datagram: the missing tokens accrue in it. -/
theorem service_covers {deficit rate : Nat} (hdeficit : deficit ≤ 65535) (hpos : 0 < rate) (hrate : rate ≤ u64Max) :
    10 ^ 9 * deficit ≤ rate * min (satAdd128 (satMul128 deficit 1000000000) (rate - 1) / rate) u64Max := by
  have h64 : u64Max = 2 ^ 64 - 1 := rfl
  have h128 : u128Max = 2 ^ 128 - 1 := rfl
  have hnanos : satAdd128 (satMul128 deficit 1000000000) (rate - 1) = deficit * 1000000000 + (rate - 1) := by
    simp only [satAdd128, satMul128]
    omega
  have hle : (deficit * 1000000000 + (rate - 1)) / rate ≤ u64Max := by
    have hceil : deficit * 1000000000 + (rate - 1) < (deficit * 1000000000 + 1) * rate := by
      have := Nat.le_mul_of_pos_right (deficit * 1000000000) hpos
      rw [Nat.add_mul]
      omega
    have := (Nat.div_lt_iff_lt_mul hpos).2 hceil
    omega
  rw [hnanos, Nat.min_eq_left hle]
  have hmod := Nat.div_add_mod (deficit * 1000000000 + (rate - 1)) rate
  have hlt := Nat.mod_lt (deficit * 1000000000 + (rate - 1)) hpos
  omega

/-- One call: the bucket's clock moves to the release, and the datagram is paid
for by the tokens there were and the time that passed. -/
theorem bandwidthDelay_pays (e : DatagramDirectionEngine) (id : String) {now size : Nat} (rate burst : NonZeroU64)
    (hsize : size ≤ 65535) {instant : Nat}
    (h : checkedAdd now (e.bandwidthDelay id now size rate.get burst.get).1 = some instant) :
    ∃ b, (e.bandwidthDelay id now size rate.get burst.get).2.buckets id = some b ∧ b.updated = instant ∧
      b.tokens ≤ burst.get ∧ (e.bucketAt id burst.get now).updated ≤ instant ∧
      10 ^ 9 * size + 10 ^ 9 * b.tokens ≤
        10 ^ 9 * (e.bucketAt id burst.get now).tokens + rate.get * (instant - (e.bucketAt id burst.get now).updated) := by
  have hfits : now + (e.bandwidthDelay id now size rate.get burst.get).1 = instant ∧ instant ≤ maxInstant := by
    simp only [checkedAdd] at h
    split at h
    · next hle => exact ⟨Option.some.inj h, Option.some.inj h ▸ hle⟩
    · cases h
  have hrange : maxInstant < maxDuration := by decide
  simp only [bandwidthDelay, bucketAt] at hfits ⊢
  generalize (e.buckets id).getD ⟨burst.get, now⟩ = found at *
  have hrefill := refill_le found.tokens (max now found.updated - found.updated) rate.get burst.get
  have hburst := Nat.min_le_right (satAdd found.tokens
    (min (satMul128 (max now found.updated - found.updated) rate.get / 1000000000) u64Max)) burst.get
  generalize min (satAdd found.tokens
    (min (satMul128 (max now found.updated - found.updated) rate.get / 1000000000) u64Max)) burst.get = tokens at *
  split at hfits
  · next henough =>
    rw [if_pos henough]
    have hinstant : instant = max now found.updated := by omega
    refine ⟨_, if_pos rfl, hinstant.symm, by simp only; omega, by omega, ?_⟩
    rw [hinstant]
    simp only
    omega
  · next hshort =>
    rw [if_neg hshort]
    have hcovers := service_covers (show size - tokens ≤ 65535 by omega) rate.pos rate.le_max
    generalize min (satAdd128 (satMul128 (size - tokens) 1000000000) (rate.get - 1) / rate.get) u64Max = service at *
    have hinstant : instant = max now found.updated + service := by
      simp only [durationSatAdd] at hfits
      omega
    have hmoved : checkedAdd (max now found.updated) service = some instant := by
      simp only [checkedAdd]
      rw [if_pos (by omega), hinstant]
    refine ⟨_, if_pos rfl, by simp only [hmoved, Option.getD_some], Nat.zero_le _, by omega, ?_⟩
    have hsplit : instant - found.updated = (max now found.updated - found.updated) + service := by omega
    rw [hsplit, Nat.mul_add]
    simp only
    omega

/-! ## Runs -/

/-- A bucket is the balance its releases are paid from. -/
theorem releases_paid (id : String) (rate burst : NonZeroU64) (calls : List PacedCall) (e : DatagramDirectionEngine)
    {b : Bucket} (hb : ∀ call ∈ calls.head?, e.bucketAt id burst.get call.now = b) :
    Paid burst.get rate.get (10 ^ 9 * b.tokens) b.updated (e.releases id rate burst calls) := by
  induction calls generalizing e b with
  | nil => trivial
  | cons call calls ih =>
    have hfound : e.bucketAt id burst.get call.now = b := hb call rfl
    simp only [releases]
    cases hinstant : checkedAdd call.now (e.bandwidthDelay id call.now call.size rate.get burst.get).1 with
    | none => trivial
    | some instant =>
      obtain ⟨left, hleft, hupdated, hburst, hle, hpays⟩ := e.bandwidthDelay_pays id rate burst call.size_le hinstant
      rw [hfound] at hle hpays
      refine ⟨hle, 10 ^ 9 * left.tokens, Nat.mul_le_mul_left _ hburst, hpays, ?_⟩
      rw [← hupdated]
      refine ih _ fun next _ => ?_
      rw [bucketAt, hleft, Option.getD_some]

/-- The releases of one bucket are in order, and after any of them no more goes
out up to a later one than a burst and the rate over the time between. -/
theorem pacing_conforms (e : DatagramDirectionEngine) (id : String) (rate burst : NonZeroU64) (calls : List PacedCall)
    (before mid after : List Release) (a b : Release)
    (h : e.releases id rate burst calls = before ++ a :: (mid ++ b :: after)) :
    a.instant ≤ b.instant ∧
      10 ^ 9 * totalSize (mid ++ [b]) ≤ 10 ^ 9 * burst.get + rate.get * (b.instant - a.instant) := by
  have hpaid : ∃ balance cursor, Paid burst.get rate.get balance cursor (e.releases id rate burst calls) := by
    cases calls with
    | nil => exact ⟨0, 0, trivial⟩
    | cons call calls =>
      exact ⟨_, _, releases_paid id rate burst (call :: calls) e (b := e.bucketAt id burst.get call.now)
        fun first hfirst => by rw [← Option.some.inj hfirst]⟩
  obtain ⟨balance, cursor, hpaid⟩ := hpaid
  rw [h] at hpaid
  exact hpaid.window_le

/-- Four bytes of burst and one byte a second: of three datagrams of four bytes
at once, the second leaves after four seconds and the third after eight. -/
theorem pacing_conforms_backlog :
    4000000000 ≤ 8000000000 ∧ 10 ^ 9 * totalSize [⟨4, 8000000000⟩] ≤ 10 ^ 9 * 4 + 1 * (8000000000 - 4000000000) :=
  pacing_conforms pairEngine "pace" ⟨1, by decide, by decide⟩ ⟨4, by decide, by decide⟩
    [⟨0, 4, by decide⟩, ⟨0, 4, by decide⟩, ⟨0, 4, by decide⟩] [⟨4, 0⟩] [] [] ⟨4, 4000000000⟩ ⟨4, 8000000000⟩
    (by decide)

end DatagramDirectionEngine

end Eggchaos
