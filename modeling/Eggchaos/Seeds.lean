import Eggchaos.DatagramRuns
import Eggchaos.Lib.Mixing
/-!
# Decision streams of datagrams

`admit` draws the outcome of a stage from a stream of its own: the association,
the ingress ordinal and the stage are folded into one word, and `derive_seed`
mixes it. The mixing loses nothing (`deriveSeed_injective`), so two datagrams
share a stream exactly when their words are equal.

The ordinal is rotated by nine bits only, and an association past the 512th
reaches into it: `distinct_streams_iff` says which datagrams have streams of their
own.
-/

namespace Eggchaos
open Lib

/-! ## What the mixing keeps -/

theorem splitmix_injective : Function.Injective splitmix := by
  intro x y h
  have h31 := xorShift_injective (s := 31) (by decide) (by decide) h
  have h27 := xorShift_injective (s := 27) (by decide) (by decide)
    (mul_injective (c := 0x94d049bb133111eb) (d := 0x319642b2d24d8ec3) (by decide) h31)
  have h30 := xorShift_injective (s := 30) (by decide) (by decide)
    (mul_injective (c := 0xbf58476d1ce4e5b9) (d := 0x96de1b173f119089) (by decide) h27)
  exact (UInt64.add_left_inj _).1 h30

/-- A rotation moves the high bits below the low ones. -/
theorem rotateLeft_toNat (x : UInt64) {n : UInt64} (hpos : 0 < n.toNat) (hlt : n.toNat < 64) :
    (rotateLeft x n).toNat = x.toNat % 2 ^ (64 - n.toNat) * 2 ^ n.toNat + x.toNat / 2 ^ (64 - n.toNat) := by
  have hx : x.toNat < 2 ^ (64 - n.toNat) * 2 ^ n.toNat := by
    rw [← pow_add, Nat.sub_add_cancel hlt.le]
    exact x.toNat_lt
  have hsub : (64 - n : UInt64).toNat = 64 - n.toNat :=
    UInt64.toNat_sub_of_le _ _ (UInt64.le_iff_toNat_le.2 hlt.le)
  have hhigh : x.toNat / 2 ^ (64 - n.toNat) < 2 ^ n.toNat := Nat.div_lt_of_lt_mul hx
  have hlow : x.toNat <<< n.toNat % 2 ^ 64 = (x.toNat % 2 ^ (64 - n.toNat)) <<< n.toNat := by
    rw [Nat.shiftLeft_eq, Nat.shiftLeft_eq, ← Nat.mul_mod_mul_right, ← pow_add, Nat.sub_add_cancel hlt.le]
  calc (rotateLeft x n).toNat
      = (x.toNat % 2 ^ (64 - n.toNat)) <<< n.toNat ||| x.toNat / 2 ^ (64 - n.toNat) := by
        rw [rotateLeft, UInt64.toNat_or, UInt64.toNat_shiftLeft, UInt64.toNat_shiftRight, hsub,
          Nat.mod_eq_of_lt hlt, Nat.mod_eq_of_lt (show 64 - n.toNat < 64 by omega), hlow, Nat.shiftRight_eq_div_pow]
    _ = (x.toNat % 2 ^ (64 - n.toNat)) <<< n.toNat + x.toNat / 2 ^ (64 - n.toNat) :=
        (Nat.shiftLeft_add_eq_or_of_lt hhigh _).symm
    _ = _ := by rw [Nat.shiftLeft_eq]

theorem rotateLeft_injective {n : UInt64} (hpos : 0 < n.toNat) (hlt : n.toNat < 64) :
    Function.Injective fun x : UInt64 => rotateLeft x n := by
  intro x y hxy
  have hval := congrArg UInt64.toNat hxy
  simp only [rotateLeft_toNat _ hpos hlt] at hval
  have hhigh (z : UInt64) : z.toNat / 2 ^ (64 - n.toNat) < 2 ^ n.toNat := by
    apply Nat.div_lt_of_lt_mul
    rw [← pow_add, Nat.sub_add_cancel hlt.le]
    exact z.toNat_lt
  have hmod := congrArg (· % 2 ^ n.toNat) hval
  have hdiv := congrArg (· / 2 ^ n.toNat) hval
  simp only [Nat.mul_add_mod_self_right, Nat.mod_eq_of_lt (hhigh _)] at hmod
  simp only [Nat.mul_comm _ (2 ^ n.toNat), Nat.mul_add_div (Nat.two_pow_pos _), Nat.div_eq_of_lt (hhigh _),
    Nat.add_zero] at hdiv
  apply UInt64.toNat_inj.1
  rw [← Nat.div_add_mod x.toNat (2 ^ (64 - n.toNat)), ← Nat.div_add_mod y.toNat (2 ^ (64 - n.toNat)), hmod, hdiv]

/-- One run, proxy, direction and fault: a stream for each key. -/
theorem deriveSeed_injective (runSeed : UInt64) (proxy : String) (direction : Direction) (fault : FaultId) :
    Function.Injective fun connectionKey => deriveSeed runSeed proxy connectionKey direction fault := by
  intro x y h
  exact rotateLeft_injective (by decide) (by decide)
    ((UInt64.add_right_inj _).1 ((UInt64.add_left_inj _).1 (splitmix_injective h)))

theorem deriveDatagramSeed_injective (seedNamespace : UInt64) (proxy : String) (direction : Direction)
    (fault : FaultId) :
    Function.Injective fun association => deriveDatagramSeed seedNamespace proxy association direction fault := by
  intro x y h
  exact deriveSeed_injective seedNamespace proxy direction fault ((UInt64.xor_left_inj _).1 h)

/-! ## The stream of a datagram -/

namespace DatagramDirectionEngine

/-- The seed `admit` derives for one stage of one copy. -/
def decisionSeed (e : DatagramDirectionEngine) (policy : PublishedDatagramPolicy) (ordinal stage : Nat)
    (fault : DatagramFaultSpec) (copy : Nat) : UInt64 :=
  deriveDatagramSeed (policy.seedNamespace ^^^ copy.toUInt64) e.proxy
    (e.association ^^^ rotateLeft ordinal.toUInt64 9 ^^^ stage.toUInt64) e.direction fault.id

/-- It is all a stage's decision depends on, the probability apart. -/
theorem activates_eq (e : DatagramDirectionEngine) (policy : PublishedDatagramPolicy) (ordinal stage : Nat)
    (fault : DatagramFaultSpec) (copy : Nat) :
    e.activates policy ordinal stage fault copy =
      (DeterministicRng.new (e.decisionSeed policy ordinal stage fault copy)).bernoulli fault.probability.get :=
  rfl

/-- Two datagrams of one stage share a stream only through their association and
ordinal. -/
theorem decisionSeed_eq_iff (e : DatagramDirectionEngine) (policy : PublishedDatagramPolicy) (stage : Nat)
    (fault : DatagramFaultSpec) (copy : Nat) (a b : UInt64) (o p : Nat) :
    { e with association := a }.decisionSeed policy o stage fault copy =
        { e with association := b }.decisionSeed policy p stage fault copy ↔
      a ^^^ rotateLeft o.toUInt64 9 = b ^^^ rotateLeft p.toUInt64 9 := by
  constructor
  · intro h
    exact (UInt64.xor_left_inj _).1 (deriveDatagramSeed_injective _ _ _ _ h)
  · intro h
    simp only [decisionSeed, h]

end DatagramDirectionEngine

/-! ## Where associations and ordinals overlap -/

/-- Below `2 ^ 55` an ordinal is rotated without loss, to a multiple of 512. -/
theorem rotateLeft_ordinal {o : Nat} (hlt : o < 2 ^ 55) : (rotateLeft o.toUInt64 9).toNat = o <<< 9 := by
  have hval : o.toUInt64.toNat = o := Nat.mod_eq_of_lt (by omega)
  rw [rotateLeft_toNat _ (by decide) (by decide), hval]
  change o % 2 ^ 55 * 2 ^ 9 + o / 2 ^ 55 = o <<< 9
  rw [Nat.shiftLeft_eq]
  omega

theorem xor_rotated {o p : Nat} (ho : o < 2 ^ 55) (hp : p < 2 ^ 55) :
    (rotateLeft o.toUInt64 9 ^^^ rotateLeft p.toUInt64 9).toNat = 512 * (o ^^^ p) := by
  rw [UInt64.toNat_xor, rotateLeft_ordinal ho, rotateLeft_ordinal hp, ← Nat.shiftLeft_xor_distrib, Nat.shiftLeft_eq,
    Nat.mul_comm]

/-- The folded words are equal when the associations differ as the rotated
ordinals do. -/
theorem folded_eq_iff (a b : UInt64) {o p : Nat} (ho : o < 2 ^ 55) (hp : p < 2 ^ 55) :
    a ^^^ rotateLeft o.toUInt64 9 = b ^^^ rotateLeft p.toUInt64 9 ↔ a.toNat ^^^ b.toNat = 512 * (o ^^^ p) := by
  rw [xor_exchange, ← xor_rotated ho hp, ← UInt64.toNat_xor, UInt64.toNat_inj]

/-- Two differing datagrams of one stage have streams of their own unless their
ordinals differ and their associations differ as the rotated ordinals do. -/
theorem distinct_streams_iff (e : DatagramDirectionEngine) (policy : PublishedDatagramPolicy) (stage : Nat)
    (fault : DatagramFaultSpec) (a b o p : UInt32) :
    ((a, o) ≠ (b, p) →
        { e with association := a.toUInt64 }.decisionSeed policy o.toNat stage fault 0 ≠
          { e with association := b.toUInt64 }.decisionSeed policy p.toNat stage fault 0) ↔
      (o ≠ p → a.toNat ^^^ b.toNat ≠ 512 * (o.toNat ^^^ p.toNat)) := by
  have ho := o.toNat_lt
  have hp := p.toNat_lt
  rw [Ne, Ne, DatagramDirectionEngine.decisionSeed_eq_iff, folded_eq_iff _ _ (by omega) (by omega),
    UInt32.toNat_toUInt64, UInt32.toNat_toUInt64]
  constructor
  · intro h hne
    exact h fun heq => hne (Prod.ext_iff.1 heq).2
  · intro h hpair heq
    by_cases hop : o = p
    · -- One ordinal: the associations differ, and nothing is xored into them.
      subst hop
      rw [Nat.xor_self, Nat.mul_zero] at heq
      exact hpair (by rw [UInt32.toNat_inj.1 (eq_of_nat_xor heq)])
    · exact h hop heq

/-! ## A shared stream -/

theorem loss_nonempty : "loss" ≠ "" := by decide
theorem loss_short : "loss".utf8ByteSize ≤ 128 := by decide
theorem half_nonneg : (0 : ℚ) ≤ 1 / 2 := by norm_num
theorem half_le_one : (1 / 2 : ℚ) ≤ 1 := by norm_num

def lossId : FaultId := ⟨"loss", loss_nonempty, loss_short⟩

def half : Probability := ⟨1 / 2, half_nonneg, half_le_one⟩

/-- Every second datagram is lost. -/
def lossyPolicy : PublishedDatagramPolicy where
  generation := 1
  plan := ⟨[⟨lossId, half, .loss⟩]⟩
  seedNamespace := 7
  fits := one_le_u64Max
  valid := by decide

def lossyEngine (association : UInt64) : DatagramDirectionEngine where
  limits := pairLimits
  proxy := "dns"
  association
  direction := .upstream
  ordinal := 0
  queue := []
  evidence := {}
  buckets := fun _ => none
  bucketsGeneration := 0

/-- The second datagram of association 1 and the first of association 513 share
the stream of every stage. -/
theorem shared_stream :
    ((1, 1) : UInt32 × UInt32) ≠ (513, 0) ∧
      (lossyEngine 1).decisionSeed lossyPolicy 1 0 ⟨lossId, half, .loss⟩ 0 =
        (lossyEngine 513).decisionSeed lossyPolicy 0 0 ⟨lossId, half, .loss⟩ 0 := by
  exact ⟨by decide, by decide⟩

end Eggchaos
