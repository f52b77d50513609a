import Eggchaos.ToxicRuns
/-!
# What the translation of toxics loses

A fault shows as a toxic by `attrsFromKind`, and a toxic becomes a fault by
`kindFromAttrs`. The toxic vocabulary is the coarser one: whole milliseconds and
kibibytes, and no word for a buffer, a burst or a soft close.

Written back, a toxic makes the fault it came from, unless its rate passed what
`u64` holds (`retraction_iff`).
-/

namespace Eggchaos
open Lib

/-! ## Units -/

theorem asMillis_fromMillis (millis : UInt64) : asMillis (fromMillis millis) = millis := by
  rw [asMillis, fromMillis, Nat.mul_div_cancel _ (by decide), Nat.min_eq_left (toNat_le_u64Max millis), UInt64.ofNat_toNat]

theorem asMicros_fromMicros (micros : UInt64) : asMicros (fromMicros micros) = micros := by
  rw [asMicros, fromMicros, Nat.mul_div_cancel _ (by decide), Nat.min_eq_left (toNat_le_u64Max micros), UInt64.ofNat_toNat]

/-- The longest fault duration in nanoseconds fits 64 bits, and so in all units. -/
theorem maxStreamFaultDuration_le : maxStreamFaultDuration ≤ u64Max := by decide

theorem fromMillis_asMillis {duration : Nat} (h : duration ≤ maxStreamFaultDuration) :
    fromMillis (asMillis duration) = duration ↔ 1000000 ∣ duration := by
  have hle : duration / 1000000 ≤ u64Max := (Nat.div_le_self _ _).trans (h.trans maxStreamFaultDuration_le)
  have hmax : u64Max < UInt64.size := by decide
  rw [fromMillis, asMillis, Nat.min_eq_left hle, UInt64.toNat_ofNat_of_lt' (Nat.lt_of_le_of_lt hle hmax)]
  exact ⟨fun heq => Dvd.intro_left _ heq, Nat.div_mul_cancel⟩

theorem fromMicros_asMicros {duration : Nat} (h : duration ≤ maxStreamFaultDuration) :
    fromMicros (asMicros duration) = duration ↔ 1000 ∣ duration := by
  have hle : duration / 1000 ≤ u64Max := (Nat.div_le_self _ _).trans (h.trans maxStreamFaultDuration_le)
  have hmax : u64Max < UInt64.size := by decide
  rw [fromMicros, asMicros, Nat.min_eq_left hle, UInt64.toNat_ofNat_of_lt' (Nat.lt_of_le_of_lt hle hmax)]
  exact ⟨fun heq => Dvd.intro_left _ heq, Nat.div_mul_cancel⟩

theorem nonZero_ext {a b : NonZeroU64} : a = b ↔ a.get = b.get := by
  constructor
  · rintro rfl
    rfl
  · cases a
    cases b
    rintro rfl
    rfl

theorem atLeastOne_toUInt64 (value : NonZeroU64) : atLeastOne value.toUInt64 = value := by
  have hpos := value.pos
  rw [nonZero_ext]
  change max value.toUInt64.toNat 1 = value.get
  rw [Wire.toNat_toUInt64, Nat.max_eq_left hpos]

theorem toNat_max (a b : UInt64) : (max a b).toNat = max a.toNat b.toNat := by
  have hle : a ≤ b ↔ a.toNat ≤ b.toNat := UInt64.le_iff_toNat_le
  change (if a ≤ b then b else a).toNat = _
  split
  · next h => rw [Nat.max_eq_right (hle.1 h)]
  · next h => rw [Nat.max_eq_left (Nat.le_of_not_le fun h' => h (hle.2 h'))]

/-- The rate a toxic shows: rounded to kibibytes, in arithmetic that wraps. -/
def shownRate (bytesPerSecond : NonZeroU64) : UInt64 := max ((bytesPerSecond.toUInt64 + 512) / 1024) 1

/-- Only whole kibibytes come back. -/
theorem kibibytes_shownRate (bytesPerSecond : NonZeroU64) :
    kibibytes (atLeastOne (shownRate bytesPerSecond)) = bytesPerSecond ↔ 1024 ∣ bytesPerSecond.get := by
  have hpos := bytesPerSecond.pos
  have hle := bytesPerSecond.le_max
  have hmax : u64Max = 2 ^ 64 - 1 := rfl
  have hshown : (shownRate bytesPerSecond).toNat = max ((bytesPerSecond.get + 512) % 2 ^ 64 / 1024) 1 := by
    rw [shownRate, toNat_max, UInt64.toNat_div, UInt64.toNat_add, Wire.toNat_toUInt64]
    rfl
  rw [nonZero_ext]
  simp only [kibibytes, atLeastOne, hshown, satMul, clampU64]
  omega

/-- A rate of a toxic is whole kibibytes as long as they fit. -/
theorem dvd_kibibytes (rate : UInt64) : 1024 ∣ (kibibytes (atLeastOne rate)).get ↔ rate.toNat < 2 ^ 54 := by
  have hlt := rate.toNat_lt
  have hmax : u64Max = 2 ^ 64 - 1 := rfl
  simp only [kibibytes, atLeastOne, satMul, clampU64]
  omega

theorem unitProbability_get (p : Probability) : unitProbability (F64.clampUnit (.finite p.get)) = .ok p := by
  have hclamp : max 0 (min p.get 1) = p.get := by rw [min_eq_left p.le_one, max_eq_right p.nonneg]
  have hunit : 0 ≤ p.get ∧ p.get ≤ 1 := ⟨p.nonneg, p.le_one⟩
  simp only [unitProbability, F64.clampUnit, F64.toBinary64, hclamp, Probability.new, hunit, and_self, dif_pos]
  rfl

/-! ## Fault to toxic and back -/

/-- The sum that `attrs_from_kind` rounds a rate by passes `u64`. -/
def FaultKind.RoundingOverflows : FaultKind → Prop
  | .bandwidth c => u64Max < c.bytesPerSecond.get + 512
  | .latency _ | .blackhole _ | .limitData _ | .slowClose _ | .slice _ | .disconnect _ | .streamLoss _ => False

/-- The types of toxics, and what each makes of its attributes. -/
theorem kindFromAttrs_cases {kind : String} {attrs : ToxicAttributes} {profile : CompatProfile} {k : FaultKind}
    (h : kindFromAttrs kind attrs profile = .ok k) :
    (kind = "latency" ∧ k = .latency ⟨fromMillis (attrs.latency.getD 0), fromMillis (attrs.jitter.getD 0), toxicBuffer⟩) ∨
      (kind = "bandwidth" ∧ k = .bandwidth ⟨kibibytes (atLeastOne (attrs.rate.getD 1)), toxicBuffer⟩) ∨
      (kind = "timeout" ∧ k = .blackhole ⟨(attrs.timeout.filter (0 < ·)).map fromMillis⟩) ∨
      (kind = "slow_close" ∧ k = .slowClose ⟨fromMillis (attrs.delay.getD 0)⟩) ∨
      (kind = "reset_peer" ∧ k = .disconnect ⟨fromMillis (attrs.timeout.getD 0), true⟩) ∨
      (kind = "slicer" ∧ k = .slice
        ⟨atLeastOne (attrs.averageSize.getD 1), (attrs.sizeVariation.getD 0).toNat, fromMicros (attrs.delay.getD 0)⟩) ∨
      (kind = "limit_data" ∧ k = .limitData ⟨atLeastOne (attrs.bytes.getD 1)⟩) ∨
      (kind = "packet_loss" ∧ profile.acceptsPacketLoss = true ∧ ∃ lossRate correlation,
        unitProbability (attrs.lossRate.getD (.finite 0)).clampUnit = .ok lossRate ∧
          unitProbability (attrs.correlation.getD (.finite 0)).clampUnit = .ok correlation ∧
          k = .streamLoss ⟨lossRate, correlation⟩) := by
  unfold kindFromAttrs at h
  -- the seven types of v2.12
  iterate 7
    split at h
    · cases h
      exact .inl ⟨by assumption, rfl⟩
    refine .inr ?_
  split at h
  · split at h
    · cases h
    · next hkind haccepts =>
      obtain ⟨lossRate, hloss, h⟩ := except_bind_ok h
      obtain ⟨correlation, hcorrelation, h⟩ := except_bind_ok h
      cases h
      exact ⟨hkind, by simpa using haccepts, lossRate, correlation, hloss, hcorrelation, rfl⟩
  · cases h

/-- A timeout of zero is none, both ways. -/
theorem timeout_back (timeout : Option UInt64) :
    ((some (((timeout.filter (0 < ·)).map fromMillis).map asMillis |>.getD 0)).filter (0 < ·)).map fromMillis =
      (timeout.filter (0 < ·)).map fromMillis := by
  cases timeout with
  | none => rfl
  | some t =>
    by_cases ht : 0 < t
    · simp [Option.filter, ht, asMillis_fromMillis]
    · simp [Option.filter, ht]

theorem rate_overflows_iff (rate : UInt64) :
    u64Max < (kibibytes (atLeastOne rate)).get + 512 ↔ 2 ^ 54 ≤ rate.toNat := by
  have hlt := rate.toNat_lt
  have hmax : u64Max = 2 ^ 64 - 1 := rfl
  simp only [kibibytes, atLeastOne, satMul, clampU64]
  omega

/-- Showing a toxic and writing it back makes the same fault, without overflow,
unless it is a bandwidth toxic of `2 ^ 54` kibibytes a second or more. -/
theorem retraction_iff (profile : CompatProfile) (type : String) (attrs : ToxicAttributes) (k : FaultKind)
    (h : kindFromAttrs type attrs profile = .ok k) :
    (¬k.RoundingOverflows ∧ ∃ shown, attrsFromKind k profile = .ok (type, shown) ∧
      kindFromAttrs type shown profile = .ok k) ↔
      ¬(type = "bandwidth" ∧ 2 ^ 54 ≤ (attrs.rate.getD 1).toNat) := by
  rcases kindFromAttrs_cases h with
    ⟨rfl, rfl⟩ | ⟨rfl, rfl⟩ | ⟨rfl, rfl⟩ | ⟨rfl, rfl⟩ | ⟨rfl, rfl⟩ | ⟨rfl, rfl⟩ | ⟨rfl, rfl⟩ |
    ⟨rfl, haccepts, lossRate, correlation, -, -, rfl⟩
  · simp [FaultKind.RoundingOverflows, attrsFromKind, kindFromAttrs, asMillis_fromMillis]
  · generalize attrs.rate.getD 1 = rate
    have hwhole := (kibibytes_shownRate (kibibytes (atLeastOne rate))).trans (dvd_kibibytes rate)
    simp only [FaultKind.RoundingOverflows, rate_overflows_iff, Nat.not_le, true_and]
    constructor
    · rintro ⟨hlt, -⟩
      exact hlt
    · intro hlt
      refine ⟨hlt, _, rfl, ?_⟩
      change Except.ok (FaultKind.bandwidth ⟨kibibytes (atLeastOne (shownRate (kibibytes (atLeastOne rate)))),
        toxicBuffer⟩) = _
      rw [hwhole.2 hlt]
  · refine ⟨fun _ hbandwidth => absurd hbandwidth.1 (by decide), fun _ => ⟨id, _, rfl, ?_⟩⟩
    change Except.ok (FaultKind.blackhole ⟨_⟩) = _
    rw [timeout_back]
  · simp [FaultKind.RoundingOverflows, attrsFromKind, kindFromAttrs, asMillis_fromMillis]
  · simp [FaultKind.RoundingOverflows, attrsFromKind, kindFromAttrs, asMillis_fromMillis]
  · simp [FaultKind.RoundingOverflows, attrsFromKind, kindFromAttrs, asMicros_fromMicros, atLeastOne_toUInt64]
  · simp [FaultKind.RoundingOverflows, attrsFromKind, kindFromAttrs, atLeastOne_toUInt64]
  · simp [FaultKind.RoundingOverflows, attrsFromKind, kindFromAttrs, haccepts, unitProbability_get]
    rfl

/-- A kibibyte a second below the largest rate that is whole. -/
theorem retraction_iff_largest :
    ∃ shown, attrsFromKind (.bandwidth ⟨kibibytes (atLeastOne 18014398509481983), toxicBuffer⟩) .strictV2_12 =
        .ok ("bandwidth", shown) ∧
      kindFromAttrs "bandwidth" shown .strictV2_12 =
        .ok (.bandwidth ⟨kibibytes (atLeastOne 18014398509481983), toxicBuffer⟩) :=
  ((retraction_iff .strictV2_12 "bandwidth" { rate := some 18014398509481983 } _ rfl).2 (by decide)).2

/-- The rate of `2 ^ 54` is taken as the largest `u64`, whose rounding overflows;
wrapped, it is shown as one kibibyte a second. -/
theorem largest_rate_lost :
    kindFromAttrs "bandwidth" { rate := some 18014398509481984 } .strictV2_12 =
        .ok (.bandwidth ⟨⟨u64Max, by decide, le_refl _⟩, toxicBuffer⟩) ∧
      FaultSpec.validate ⟨⟨"lag", by decide, by decide⟩, .one, .bandwidth ⟨⟨u64Max, by decide, le_refl _⟩,
        toxicBuffer⟩⟩ = .ok () ∧
      FaultKind.RoundingOverflows (.bandwidth ⟨⟨u64Max, by decide, le_refl _⟩, toxicBuffer⟩) ∧
      attrsFromKind (.bandwidth ⟨⟨u64Max, by decide, le_refl _⟩, toxicBuffer⟩) .strictV2_12 =
        .ok ("bandwidth", { rate := some 1 }) ∧
      kindFromAttrs "bandwidth" { rate := some 1 } .strictV2_12 ≠
        .ok (.bandwidth ⟨⟨u64Max, by decide, le_refl _⟩, toxicBuffer⟩) := by
  refine ⟨by decide +kernel, by decide +kernel, ?_, by decide +kernel, by decide +kernel⟩
  exact Nat.lt_add_of_pos_right (by decide)

end Eggchaos
