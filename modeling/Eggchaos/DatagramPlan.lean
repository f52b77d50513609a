import Eggchaos.Rng
/-!
# Datagram plans

The datagram fault model of `datagram.rs`: queue limits, the six fault kinds,
ordered plans with their validation, and the published policy a datagram is
admitted under. A validated plan multiplies a datagram into at most 4096
candidates (`amplification_le`).
-/

namespace Eggchaos
open Lib

/-- Bounds of one direction's pending scheduler. -/
structure DatagramQueueLimits where
  maxQueuedDatagrams : NonZeroU64
  maxQueuedBytes : NonZeroU64
  maxDatagramBytes : NonZeroU64
deriving DecidableEq, Repr

/-- `DatagramQueueLimits::validate`. -/
def DatagramQueueLimits.validate (limits : DatagramQueueLimits) : Except String DatagramQueueLimits :=
  if 1000000 < limits.maxQueuedDatagrams.get ∨ 1073741824 < limits.maxQueuedBytes.get ∨
      65535 < limits.maxDatagramBytes.get then
    .error "datagram queue limits exceed hard bounds"
  else .ok limits

inductive DatagramFaultKind where
  | delay (delay jitter : Nat)
  | loss
  | duplicate (additionalCopies : UInt8)
  | reorder (hold : Nat)
  | payloadCorrupt (bytes : NonZeroU64)
  | bandwidth (bytesPerSecond burstBytes : NonZeroU64)
deriving DecidableEq, Repr

/-- `fault_type_index`: the slots of the activation counters. -/
def DatagramFaultKind.typeIndex : DatagramFaultKind → Fin 6
  | .delay _ _ => 0
  | .loss => 1
  | .duplicate _ => 2
  | .reorder _ => 3
  | .payloadCorrupt _ => 4
  | .bandwidth _ _ => 5

structure DatagramFaultSpec where
  id : FaultId
  probability : Probability
  kind : DatagramFaultKind
deriving DecidableEq, Repr

structure DatagramPlan where
  faults : List DatagramFaultSpec
deriving DecidableEq, Repr

namespace DatagramPlan

def empty : DatagramPlan := ⟨[]⟩

def maxDatagramFaultDuration : Nat := 86400 * 10 ^ 9

/-- The parameter check of one stage; a duplicate stage multiplies the maximum
number of candidates so far. -/
def checkKind (maximumCandidates : Nat) : DatagramFaultKind → Except String Nat
  | .duplicate additionalCopies =>
    if additionalCopies = 0 ∨ 16 < additionalCopies then .error "duplicate count must be 1..=16"
    else if 4096 < satMul maximumCandidates (additionalCopies.toNat + 1) then
      .error "plan duplication amplification exceeds 4096 candidates"
    else .ok (satMul maximumCandidates (additionalCopies.toNat + 1))
  | .delay delay jitter =>
    if maxDatagramFaultDuration < delay ∨ maxDatagramFaultDuration < jitter then
      .error "delay and jitter must be at most 24 hours"
    else .ok maximumCandidates
  | .reorder hold =>
    if maxDatagramFaultDuration < hold then .error "reorder hold must be at most 24 hours"
    else .ok maximumCandidates
  | .loss | .payloadCorrupt _ | .bandwidth _ _ => .ok maximumCandidates

/-- The loop of `validate`, with the ids seen and the amplification so far. The
checks of the id's length and of the probability cannot fail, since those types
carry them. -/
def validateFrom : List FaultId → Nat → List DatagramFaultSpec → Except String Unit
  | _, _, [] => .ok ()
  | ids, maximumCandidates, fault :: rest =>
    if fault.id ∈ ids then .error "duplicate fault id"
    else match checkKind maximumCandidates fault.kind with
      | .error e => .error e
      | .ok maximumCandidates => validateFrom (fault.id :: ids) maximumCandidates rest

/-- `DatagramPlan::validate`. -/
def validate (plan : DatagramPlan) : Except String Unit :=
  if 256 < plan.faults.length then .error "datagram plans are limited to 256 stages"
  else validateFrom [] 1 plan.faults

/-- `DatagramPlan::new`. -/
def new (faults : List DatagramFaultSpec) : Except String DatagramPlan :=
  match validate ⟨faults⟩ with
  | .error e => .error e
  | .ok () => .ok ⟨faults⟩

/-- The outputs a stage can make of one candidate. -/
def fanOut : DatagramFaultKind → Nat
  | .duplicate additionalCopies => additionalCopies.toNat + 1
  | .delay _ _ | .loss | .reorder _ | .payloadCorrupt _ | .bandwidth _ _ => 1

/-- The most candidates the stages make of one. -/
def amplification (faults : List DatagramFaultSpec) : Nat := (faults.map (fanOut ·.kind)).prod

theorem fanOut_pos (kind : DatagramFaultKind) : 0 < fanOut kind := by
  cases kind <;> simp [fanOut]

theorem amplification_pos (faults : List DatagramFaultSpec) : 0 < amplification faults := by
  induction faults with
  | nil => exact Nat.one_pos
  | cons fault faults ih =>
    rw [amplification, List.map_cons, List.prod_cons]
    exact Nat.mul_pos (fanOut_pos fault.kind) ih

theorem checkKind_ok {maximum maximum' : Nat} {kind : DatagramFaultKind} (hm : maximum ≤ 4096)
    (h : checkKind maximum kind = .ok maximum') : maximum' = maximum * fanOut kind ∧ maximum' ≤ 4096 := by
  cases kind with
  | duplicate copies =>
    simp only [checkKind] at h
    split at h
    · cases h
    · split at h
      · cases h
      · next hle =>
        have hmax : u64Max = 2 ^ 64 - 1 := rfl
        cases h
        simp only [satMul, clampU64] at hle ⊢
        refine ⟨?_, by omega⟩
        show min _ _ = maximum * (copies.toNat + 1)
        omega
  | delay delay jitter =>
    simp only [checkKind] at h
    split at h
    · cases h
    · cases h; simp [fanOut, hm]
  | reorder hold =>
    simp only [checkKind] at h
    split at h
    · cases h
    · cases h; simp [fanOut, hm]
  | loss => cases h; simp [fanOut, hm]
  | payloadCorrupt bytes => cases h; simp [fanOut, hm]
  | bandwidth rate burst => cases h; simp [fanOut, hm]

theorem validateFrom_amplification {ids : List FaultId} {maximum : Nat} {faults : List DatagramFaultSpec}
    (hm : maximum ≤ 4096) (h : validateFrom ids maximum faults = .ok ()) :
    maximum * amplification faults ≤ 4096 := by
  induction faults generalizing ids maximum with
  | nil => simpa [amplification] using hm
  | cons fault rest ih =>
    simp only [validateFrom] at h
    split at h
    · cases h
    · split at h
      · cases h
      · next hk =>
        obtain ⟨rfl, hle⟩ := checkKind_ok hm hk
        have := ih hle h
        simpa [amplification, Nat.mul_assoc] using this

/-- A validated plan makes at most 4096 candidates of a datagram. -/
theorem amplification_le {plan : DatagramPlan} (h : plan.validate = .ok ()) : amplification plan.faults ≤ 4096 := by
  simp only [validate] at h
  split at h
  · cases h
  · have := validateFrom_amplification (by decide) h
    omega

/-- A stage that passes behind some number of candidates passes behind fewer. -/
theorem checkKind_mono {maximum maximum' after : Nat} {kind : DatagramFaultKind} (hm : maximum' ≤ 4096)
    (hle : maximum ≤ maximum') (h : checkKind maximum' kind = .ok after) :
    ∃ after', checkKind maximum kind = .ok after' ∧ after' ≤ after := by
  cases kind with
  | duplicate copies =>
    have hfan := (checkKind_ok hm h).1
    simp only [checkKind] at h ⊢
    split at h
    · cases h
    · next hcopies =>
      split at h
      · cases h
      · next hmost =>
        have hless : satMul maximum (copies.toNat + 1) ≤ satMul maximum' (copies.toNat + 1) := by
          have hmul := Nat.mul_le_mul_right (copies.toNat + 1) hle
          simp only [satMul, clampU64]
          omega
        cases h
        exact ⟨_, by rw [if_neg hcopies, if_neg (by omega)], hless⟩
  | delay delay jitter =>
    simp only [checkKind] at h ⊢
    split at h
    · cases h
    · next hday =>
      cases h
      exact ⟨maximum, by rw [if_neg hday], hle⟩
  | reorder hold =>
    simp only [checkKind] at h ⊢
    split at h
    · cases h
    · next hday =>
      cases h
      exact ⟨maximum, by rw [if_neg hday], hle⟩
  | loss =>
    cases h
    exact ⟨maximum, rfl, hle⟩
  | payloadCorrupt bytes =>
    cases h
    exact ⟨maximum, rfl, hle⟩
  | bandwidth rate burst =>
    cases h
    exact ⟨maximum, rfl, hle⟩

theorem validateFrom_sublist {faults faults' : List DatagramFaultSpec} (hsub : faults.Sublist faults') :
    ∀ {ids ids' : List FaultId} {maximum maximum' : Nat}, ids ⊆ ids' → maximum ≤ maximum' → maximum' ≤ 4096 →
      validateFrom ids' maximum' faults' = .ok () → validateFrom ids maximum faults = .ok () := by
  induction hsub with
  | slnil => exact fun _ _ _ _ => rfl
  | cons fault _ ih =>
    intro ids ids' maximum maximum' hids hle hm h
    simp only [validateFrom] at h
    split at h
    · cases h
    · split at h
      · cases h
      · next after hkind =>
        obtain ⟨rfl, hafter⟩ := checkKind_ok hm hkind
        have hgrows := Nat.le_mul_of_pos_right maximum' (fanOut_pos fault.kind)
        exact ih (List.subset_cons_of_subset _ hids) (Nat.le_trans hle hgrows) hafter h
  | cons_cons fault _ ih =>
    intro ids ids' maximum maximum' hids hle hm h
    simp only [validateFrom] at h ⊢
    split at h
    · cases h
    · next hnew =>
      split at h
      · cases h
      · next after hkind =>
        obtain ⟨after', hkind', hle'⟩ := checkKind_mono hm hle hkind
        rw [if_neg (fun hmem => hnew (hids hmem)), hkind']
        exact ih (List.cons_subset_cons _ hids) hle' (checkKind_ok hm hkind).2 h

/-- Stages taken out of a validated plan leave it valid. -/
theorem validate_sublist {faults faults' : List DatagramFaultSpec} (hsub : faults.Sublist faults')
    (h : validate ⟨faults'⟩ = .ok ()) : validate ⟨faults⟩ = .ok () := by
  have hlength := hsub.length_le
  simp only [validate] at h ⊢
  split at h
  · cases h
  · rw [if_neg (by omega)]
    exact validateFrom_sublist hsub (List.Subset.refl _) (Nat.le_refl _) (by decide) h

theorem new_of_valid {faults : List DatagramFaultSpec} (h : validate ⟨faults⟩ = .ok ()) : new faults = .ok ⟨faults⟩ := by
  simp only [new, h]

end DatagramPlan

/-- The immutable plan generation a datagram is admitted under. A publisher
validates the plan first, and the policy carries that. -/
structure PublishedDatagramPolicy where
  generation : Nat
  plan : DatagramPlan
  seedNamespace : UInt64
  fits : generation ≤ u64Max
  valid : plan.validate = .ok ()

/-- `derive_datagram_seed`: apart from every stream of the byte-stream faults. -/
def deriveDatagramSeed (seedNamespace : UInt64) (proxy : String) (association : UInt64) (direction : Direction)
    (fault : FaultId) : UInt64 :=
  deriveSeed seedNamespace proxy association direction fault ^^^ 0xd47a6a4a00000001

example : deriveDatagramSeed 42 "proxy" 7 .upstream ⟨"loss", by decide, by decide⟩ = 8567709853283824039 := by
  decide

end Eggchaos
