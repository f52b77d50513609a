import Eggchaos.Corruption
import Eggchaos.Seeds
import Mathlib.Data.Int.CardIntervalMod
/-!
# One period of a generator

A generator comes back to its state after exactly 2 ^ 64 draws, whatever it was
seeded with, and has then drawn every value once (`DeterministicRng.period`). So over
one period the modulo of `below` prefers no value by more than one draw, and the
threshold of `bernoulli` lets through as many as its probability says, rounded
down.
-/

namespace Eggchaos
open Lib

/-- The values below `n` that have a property are as many as the turns below `n` that
hit one, if every turn below `n` hits another value. -/
theorem card_hits {n : Nat} {f : Nat → Nat} (hlt : ∀ k, f k < n) (hinj : Set.InjOn f (Finset.range n : Set Nat))
    (p : Nat → Prop) [DecidablePred p] :
    ((Finset.range n).filter fun k => p (f k)).card = ((Finset.range n).filter p).card := by
  have hrange : (Finset.range n).image f = Finset.range n := by
    refine Finset.eq_of_subset_of_card_le ?_ ?_
    · intro v hv
      obtain ⟨k, -, rfl⟩ := Finset.mem_image.1 hv
      exact Finset.mem_range.2 (hlt k)
    · rw [Finset.card_image_of_injOn hinj]
  calc ((Finset.range n).filter fun k => p (f k)).card
      = (((Finset.range n).filter fun k => p (f k)).image f).card :=
        (Finset.card_image_of_injOn (hinj.mono (Finset.coe_subset.2 (Finset.filter_subset _ _)))).symm
    _ = (((Finset.range n).image f).filter p).card := by rw [Finset.filter_image]
    _ = ((Finset.range n).filter p).card := by rw [hrange]

theorem card_mod (n : Nat) {r upper : Nat} (h : r < upper) :
    ((Finset.range n).filter fun v => v % upper = r).card = n / upper + if r < n % upper then 1 else 0 := by
  have hmod := @Nat.count_modEq_card n upper (Nat.zero_lt_of_lt h) r
  rw [Nat.mod_eq_of_lt h, Nat.count_eq_card_filter_range] at hmod
  rw [← hmod]
  congr 1
  apply Finset.filter_congr
  intro v _
  unfold Nat.ModEq
  rw [Nat.mod_eq_of_lt h]

theorem card_lt {n t : Nat} (h : t ≤ n) : ((Finset.range n).filter fun v => v < t).card = t := by
  have hfilter : (Finset.range n).filter (fun v => v < t) = Finset.range t := by
    ext v
    simp only [Finset.mem_filter, Finset.mem_range]
    omega
  rw [hfilter, Finset.card_range]

namespace DeterministicRng
variable (rng : DeterministicRng)

theorem after_state (k : Nat) : (rng.after k).state = rng.state + UInt64.ofNat k * 0x9e3779b97f4a7c15 := by
  induction k with
  | zero => simp [after]
  | succ k ih =>
    show (rng.after k).state + 0x9e3779b97f4a7c15 = _
    rw [ih, UInt64.ofNat_add, UInt64.add_mul, UInt64.add_assoc]
    rfl

theorem ofNat_eq_iff (k l : Nat) : UInt64.ofNat k = UInt64.ofNat l ↔ k ≡ l [MOD 2 ^ 64] := by
  rw [← UInt64.toNat_inj, UInt64.toNat_ofNat', UInt64.toNat_ofNat']
  rfl

/-- Two states of one generator are the same if as many draws lie between them as a
period has, or a multiple of it. -/
theorem after_eq_iff (k l : Nat) : rng.after k = rng.after l ↔ k ≡ l [MOD 2 ^ 64] := by
  have hstate : rng.after k = rng.after l ↔ (rng.after k).state = (rng.after l).state :=
    ⟨congrArg state, fun h => by cases hk : rng.after k; cases hl : rng.after l; simp_all⟩
  rw [hstate, after_state, after_state, UInt64.add_right_inj, ← ofNat_eq_iff]
  exact (mul_injective (c := 0x9e3779b97f4a7c15) (d := 0xf1de83e19937733d) (by decide)).eq_iff

/-- What draw `k` gives. -/
def draw (k : Nat) : Nat := (rng.after k).nextU64.1.toNat

theorem draw_lt (k : Nat) : rng.draw k < 2 ^ 64 := UInt64.toNat_lt _

theorem draw_eq_iff (k l : Nat) : rng.draw k = rng.draw l ↔ k ≡ l [MOD 2 ^ 64] := by
  rw [← rng.after_eq_iff, draw, draw, UInt64.toNat_inj]
  constructor
  · intro h
    have hstate := (UInt64.add_left_inj _).1 (splitmix_injective h)
    cases hk : rng.after k
    cases hl : rng.after l
    simp_all
  · intro h
    rw [h]

theorem draw_injOn : Set.InjOn rng.draw (Finset.range (2 ^ 64) : Set Nat) := by
  intro k hk l hl h
  rw [Finset.coe_range, Set.mem_Iio] at hk hl
  exact Nat.ModEq.eq_of_lt_of_lt ((rng.draw_eq_iff k l).1 h) hk hl

theorem below_eq (k : Nat) {upper : Nat} (hupper : 0 < upper) :
    ((rng.after k).below upper).1 = rng.draw k % upper := by
  simp [below, draw, Nat.pos_iff_ne_zero.1 hupper]

/-- How often one period of draws falls on a remainder. -/
theorem card_below {r upper : Nat} (h : r < upper) :
    ((Finset.range (2 ^ 64)).filter fun k => ((rng.after k).below upper).1 = r).card =
      2 ^ 64 / upper + if r < 2 ^ 64 % upper then 1 else 0 := by
  simp only [rng.below_eq _ (Nat.zero_lt_of_lt h)]
  exact (card_hits rng.draw_lt rng.draw_injOn (fun v => v % upper = r)).trans (card_mod (2 ^ 64) h)

theorem bernoulli_eq (k : Nat) {p : ℚ} (hpos : 0 < p) (hlt : p < 1) :
    ((rng.after k).bernoulli p).1 = decide (rng.draw k < ⌊p * 2 ^ 64⌋.toNat) := by
  unfold bernoulli
  rw [if_neg (not_le.2 hpos), if_neg (not_le.2 hlt)]
  rfl

/-- How often one period of tosses comes out true. -/
theorem card_bernoulli (p : Probability) :
    ((Finset.range (2 ^ 64)).filter fun k => ((rng.after k).bernoulli p.get).1 = true).card =
      ⌊p.get * 2 ^ 64⌋.toNat := by
  rcases p.nonneg.eq_or_lt with hzero | hpos
  · simp [bernoulli, ← hzero]
  · rcases p.le_one.eq_or_lt with hone | hlt
    · have hcertain : ∀ k, ((rng.after k).bernoulli p.get).1 = true := by
        intro k
        unfold bernoulli
        rw [if_neg (not_le.2 hpos), if_pos hone.ge]
      have hfloor : ⌊p.get * 2 ^ 64⌋ = 2 ^ 64 := by
        rw [hone, one_mul]
        norm_num
      rw [Finset.filter_true_of_mem fun k _ => hcertain k, Finset.card_range, hfloor]
      rfl
    · have hfloor : ⌊p.get * 2 ^ 64⌋.toNat ≤ 2 ^ 64 := by
        have hle : p.get * 2 ^ 64 ≤ 1 * 2 ^ 64 := mul_le_mul_of_nonneg_right p.le_one (by positivity)
        have hfits : ⌊p.get * 2 ^ 64⌋ ≤ 2 ^ 64 := Int.floor_le_iff.2 (by push_cast; linarith)
        omega
      simp only [rng.bernoulli_eq _ hpos hlt, decide_eq_true_eq]
      exact (card_hits rng.draw_lt rng.draw_injOn (fun v => v < ⌊p.get * 2 ^ 64⌋.toNat)).trans (card_lt hfloor)

/-- A generator has a period of exactly 2 ^ 64 draws, which hits every value once. Over a
period the draws of `below` fall on each remainder equally often, but once more on
the first ones, and the tosses of `bernoulli` come out true as often as the
probability says, rounded down. -/
theorem period (rng : DeterministicRng) :
    (∀ k l, rng.after k = rng.after l ↔ k ≡ l [MOD 2 ^ 64]) ∧
    (∀ v : UInt64, ∃! k, k < 2 ^ 64 ∧ (rng.after k).nextU64.1 = v) ∧
    (∀ r upper, r < upper →
      ((Finset.range (2 ^ 64)).filter fun k => ((rng.after k).below upper).1 = r).card =
        2 ^ 64 / upper + if r < 2 ^ 64 % upper then 1 else 0) ∧
    ∀ p : Probability,
      ((Finset.range (2 ^ 64)).filter fun k => ((rng.after k).bernoulli p.get).1 = true).card =
        ⌊p.get * 2 ^ 64⌋.toNat := by
  refine ⟨rng.after_eq_iff, fun v => ?_, fun _ _ h => rng.card_below h, rng.card_bernoulli⟩
  have hone := card_hits rng.draw_lt rng.draw_injOn (· = v.toNat)
  rw [Finset.filter_eq' (Finset.range (2 ^ 64)), if_pos (Finset.mem_range.2 v.toNat_lt), Finset.card_singleton] at hone
  obtain ⟨k, hk⟩ := Finset.card_eq_one.1 hone
  have hiff : ∀ l, (l < 2 ^ 64 ∧ (rng.after l).nextU64.1 = v) ↔ l = k := by
    intro l
    have hmem : l ∈ (Finset.range (2 ^ 64)).filter (fun k => rng.draw k = v.toNat) ↔ l = k := by
      rw [hk, Finset.mem_singleton]
    rwa [Finset.mem_filter, Finset.mem_range, draw, UInt64.toNat_inj] at hmem
  exact ⟨k, (hiff k).2 rfl, fun l hl => (hiff l).1 hl⟩

end DeterministicRng
end Eggchaos
