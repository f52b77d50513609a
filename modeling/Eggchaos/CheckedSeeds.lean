import Eggchaos.Driver
import Eggchaos.ScheduleReference
import Eggchaos.Seeds
/-!
# Seed derivation in a checked build

The words `derive_policy_seed` and `derive_schedule_policy_seed` mix in are sums
of a rotated argument and a constant, taken with the plain `+` inside
`Wrapping(..)`. A build with overflow checks panics where such a sum does not
fit, which is here a derivation that returns nothing. The rotation by `n` moves
the top `n` bits of its argument below the others, so a sum overflows only when
all the others are set and the top ones are large.

The event indices of a schedule never come near, as the driver's comment on its
restore index has it; the execution key and the fingerprint are not bounded.
-/

namespace Eggchaos
open Lib

/-! ## The derivations -/

/-- `a + b` with overflow checks. -/
def checkedSum (a b : UInt64) : Option UInt64 := if a.toNat + b.toNat < 2 ^ 64 then some (a + b) else none

/-- `derive_policy_seed`, its two plain sums wrapping. -/
def derivePolicySeed (scenarioSeed runId eventIndex : UInt64) : UInt64 :=
  let h := scenarioSeed + 0x9e3779b97f4a7c15
  let h := h + (rotateLeft runId 13 + 0x100)
  let h := h ^^^ (h >>> 29)
  let h := h * 0xbf58476d1ce4e5b9
  let h := h + (rotateLeft eventIndex 31 + 0x200)
  let h := h ^^^ (h >>> 27)
  let h := h * 0x94d049bb133111eb
  splitmix (h ^^^ 0x51edee155eed5eed)

example : derivePolicySeed 7 1 0 = 4026889766568732747 := by decide

/-- `derive_policy_seed` with overflow checks. -/
def derivePolicySeedChecked (scenarioSeed runId eventIndex : UInt64) : Option UInt64 := do
  let h := scenarioSeed + 0x9e3779b97f4a7c15
  let h := h + (← checkedSum (rotateLeft runId 13) 0x100)
  let h := h ^^^ (h >>> 29)
  let h := h * 0xbf58476d1ce4e5b9
  let h := h + (← checkedSum (rotateLeft eventIndex 31) 0x200)
  let h := h ^^^ (h >>> 27)
  let h := h * 0x94d049bb133111eb
  return splitmix (h ^^^ 0x51edee155eed5eed)

/-- One lane of the fingerprint. -/
def mixLane (h : UInt64) (chunk : List UInt8) : UInt64 :=
  let h := h + (rotateLeft (fromLeBytes chunk) 11 + 0x300)
  let h := h ^^^ (h >>> 23)
  h * 0x94d049bb133111eb

def mixLaneChecked (h : UInt64) (chunk : List UInt8) : Option UInt64 := do
  let h := h + (← checkedSum (rotateLeft (fromLeBytes chunk) 11) 0x300)
  let h := h ^^^ (h >>> 23)
  return h * 0x94d049bb133111eb

/-- `derive_schedule_policy_seed` with overflow checks. -/
def deriveSchedulePolicySeedChecked (scenarioSeed executionKey : UInt64) (fingerprint : List UInt8)
    (compiledEventIndex : UInt64) : Option UInt64 := do
  let h := scenarioSeed + 0x9e3779b97f4a7c15
  let h := h + (← checkedSum (rotateLeft executionKey 7) 0x100)
  let h := h ^^^ (h >>> 29)
  let h := h * 0xbf58476d1ce4e5b9
  let h ← (fingerprint.toChunks 8).foldlM mixLaneChecked h
  let h := h + (← checkedSum (rotateLeft compiledEventIndex 23) 0x400)
  let h := h ^^^ (h >>> 27)
  let h := h * 0x94d049bb133111eb
  return splitmix (h ^^^ 0x547c0dec0dec0dec)

/-! ## When a rotated word leaves room -/

/-- Rotated by `n`, the word leaves room for `c`. -/
def Headroom (n c : Nat) (x : UInt64) : Prop :=
  x.toNat % 2 ^ (64 - n) = 2 ^ (64 - n) - 1 → x.toNat / 2 ^ (64 - n) + c < 2 ^ n

instance (n c : Nat) (x : UInt64) : Decidable (Headroom n c x) :=
  inferInstanceAs (Decidable (_ → _))

/-- The bits a rotation leaves on top decide, unless they are all set. -/
theorem rotated_fits {a b low top c : Nat} (hlow : low < a) (htop : top < b) (hc : c ≤ b) :
    low * b + top + c < a * b ↔ (low = a - 1 → top + c < b) := by
  constructor
  · intro h hall
    have hsplit : (low + 1) * b = low * b + b := Nat.succ_mul low b
    rw [show low + 1 = a by omega] at hsplit
    omega
  · intro h
    by_cases hall : low = a - 1
    · have hsplit : (low + 1) * b = low * b + b := Nat.succ_mul low b
      rw [show low + 1 = a by omega] at hsplit
      have := h hall
      omega
    · have hle : (low + 2) * b ≤ a * b := Nat.mul_le_mul_right b (by omega)
      rw [Nat.add_mul] at hle
      omega

theorem headroom_iff {n : UInt64} {c : UInt64} (x : UInt64) (hpos : 0 < n.toNat) (hlt : n.toNat < 64)
    (hc : c.toNat ≤ 2 ^ n.toNat) :
    (rotateLeft x n).toNat + c.toNat < 2 ^ 64 ↔ Headroom n.toNat c.toNat x := by
  have hword : 2 ^ (64 - n.toNat) * 2 ^ n.toNat = 2 ^ 64 := by rw [← pow_add, Nat.sub_add_cancel hlt.le]
  have htop : x.toNat / 2 ^ (64 - n.toNat) < 2 ^ n.toNat := Nat.div_lt_of_lt_mul (hword ▸ x.toNat_lt)
  rw [rotateLeft_toNat x hpos hlt, ← hword]
  exact rotated_fits (Nat.mod_lt _ (Nat.two_pow_pos _)) htop hc

/-- The constant of the execution key is twice the range of its top seven bits. -/
theorem key_fits_iff (key : UInt64) :
    (rotateLeft key 7).toNat + (0x100 : UInt64).toNat < 2 ^ 64 ↔ key.toNat % 2 ^ 57 < 2 ^ 57 - 2 := by
  have hlt := key.toNat_lt
  rw [rotateLeft_toNat key (by decide) (by decide)]
  change key.toNat % 2 ^ 57 * 2 ^ 7 + key.toNat / 2 ^ 57 + 256 < 2 ^ 64 ↔ _
  omega

/-! ## When a derivation returns -/

theorem checkedSum_headroom {n c : UInt64} (x : UInt64) (hpos : 0 < n.toNat) (hlt : n.toNat < 64)
    (hc : c.toNat ≤ 2 ^ n.toNat) :
    checkedSum (rotateLeft x n) c = if Headroom n.toNat c.toNat x then some (rotateLeft x n + c) else none := by
  simp only [checkedSum, headroom_iff x hpos hlt hc]

theorem checkedSum_key (key : UInt64) :
    checkedSum (rotateLeft key 7) 0x100 =
      if key.toNat % 2 ^ 57 < 2 ^ 57 - 2 then some (rotateLeft key 7 + 0x100) else none := by
  simp only [checkedSum, key_fits_iff]

theorem derivePolicySeedChecked_eq (scenarioSeed runId eventIndex : UInt64) :
    derivePolicySeedChecked scenarioSeed runId eventIndex =
      if Headroom 13 0x100 runId ∧ Headroom 31 0x200 eventIndex
      then some (derivePolicySeed scenarioSeed runId eventIndex) else none := by
  have hrun : checkedSum (rotateLeft runId 13) 0x100 =
      if Headroom 13 0x100 runId then some (rotateLeft runId 13 + 0x100) else none :=
    checkedSum_headroom runId (by decide) (by decide) (by decide)
  have hevent : checkedSum (rotateLeft eventIndex 31) 0x200 =
      if Headroom 31 0x200 eventIndex then some (rotateLeft eventIndex 31 + 0x200) else none :=
    checkedSum_headroom eventIndex (by decide) (by decide) (by decide)
  unfold derivePolicySeedChecked
  rw [hrun, hevent]
  by_cases h : Headroom 13 0x100 runId
  · by_cases h' : Headroom 31 0x200 eventIndex
    · rw [if_pos h, if_pos h', if_pos ⟨h, h'⟩]
      rfl
    · rw [if_pos h, if_neg h', if_neg (not_and_of_not_right _ h')]
      rfl
  · rw [if_neg h, if_neg (not_and_of_not_left _ h)]
    rfl

theorem mixLaneChecked_eq (h : UInt64) (chunk : List UInt8) :
    mixLaneChecked h chunk = if Headroom 11 0x300 (fromLeBytes chunk) then some (mixLane h chunk) else none := by
  have hlane : checkedSum (rotateLeft (fromLeBytes chunk) 11) 0x300 =
      if Headroom 11 0x300 (fromLeBytes chunk) then some (rotateLeft (fromLeBytes chunk) 11 + 0x300) else none :=
    checkedSum_headroom (fromLeBytes chunk) (by decide) (by decide) (by decide)
  unfold mixLaneChecked
  rw [hlane]
  split <;> rfl

/-- The fold stops at the first lane that leaves no room. -/
theorem mixLanesChecked_eq (chunks : List (List UInt8)) (h : UInt64) :
    chunks.foldlM mixLaneChecked h =
      if ∀ chunk ∈ chunks, Headroom 11 0x300 (fromLeBytes chunk) then some (chunks.foldl mixLane h) else none := by
  induction chunks generalizing h with
  | nil => simp
  | cons chunk chunks ih =>
    rw [List.foldlM_cons, mixLaneChecked_eq, List.foldl_cons]
    by_cases hroom : Headroom 11 0x300 (fromLeBytes chunk)
    · simp [hroom, ih]
    · simp [hroom]

/-- The key and every lane of the fingerprint leave room. -/
def SeedsFit (executionKey : UInt64) (fingerprint : List UInt8) : Prop :=
  executionKey.toNat % 2 ^ 57 < 2 ^ 57 - 2 ∧
    ∀ chunk ∈ fingerprint.toChunks 8, Headroom 11 0x300 (fromLeBytes chunk)

instance (executionKey : UInt64) (fingerprint : List UInt8) : Decidable (SeedsFit executionKey fingerprint) :=
  inferInstanceAs (Decidable (_ ∧ _))

theorem deriveSchedulePolicySeedChecked_eq (scenarioSeed executionKey : UInt64) (fingerprint : List UInt8)
    (index : UInt64) :
    deriveSchedulePolicySeedChecked scenarioSeed executionKey fingerprint index =
      if SeedsFit executionKey fingerprint ∧ Headroom 23 0x400 index
      then some (deriveSchedulePolicySeed scenarioSeed executionKey fingerprint index) else none := by
  have hindex : checkedSum (rotateLeft index 23) 0x400 =
      if Headroom 23 0x400 index then some (rotateLeft index 23 + 0x400) else none :=
    checkedSum_headroom index (by decide) (by decide) (by decide)
  unfold deriveSchedulePolicySeedChecked
  rw [checkedSum_key, hindex]
  by_cases hkey : executionKey.toNat % 2 ^ 57 < 2 ^ 57 - 2
  · rw [if_pos hkey]
    simp only [Option.bind_eq_bind, Option.bind_some, mixLanesChecked_eq]
    by_cases hlanes : ∀ chunk ∈ fingerprint.toChunks 8, Headroom 11 0x300 (fromLeBytes chunk)
    · rw [if_pos hlanes]
      by_cases hroom : Headroom 23 0x400 index
      · rw [if_pos hroom, if_pos ⟨⟨hkey, hlanes⟩, hroom⟩]
        rfl
      · rw [if_neg hroom, if_neg (not_and_of_not_right _ hroom)]
        rfl
    · have hfit : ¬ SeedsFit executionKey fingerprint := not_and_of_not_right _ hlanes
      rw [if_neg hlanes, if_neg (not_and_of_not_left _ hfit)]
      rfl
  · have hfit : ¬ SeedsFit executionKey fingerprint := not_and_of_not_left _ hkey
    rw [if_neg hkey, if_neg (not_and_of_not_left _ hfit)]
    rfl

/-! ## The calls of the driver -/

/-- The namespace `apply_event` derives, with overflow checks. -/
def DriveState.eventNamespaceChecked (d : Drive) (index : Nat) : Option UInt64 :=
  deriveSchedulePolicySeedChecked d.compiled.seed d.compiled.executionKey d.fingerprint index.toUInt64

/-- The namespace `run_cleanup` derives, with overflow checks. -/
def DriveState.cleanupNamespaceChecked (d : Drive) : Option UInt64 :=
  deriveSchedulePolicySeedChecked d.compiled.seed d.compiled.executionKey d.compiledFingerprint
    d.compiled.events.length.toUInt64

/-- An accepted schedule has few events. -/
theorem compileSchedule_few {source : ScenarioScheduleV2} {compiled : CompiledScenarioV2}
    (h : compileSchedule source = .ok compiled) : compiled.events.length ≤ maxCompiledEvents := by
  obtain ⟨haccepted, rfl⟩ := (compileSchedule_iff source compiled).1 h
  rw [reference_eq, tapeFrom_length]
  exact haccepted.few

theorem compileSchedule_key {source : ScenarioScheduleV2} {compiled : CompiledScenarioV2}
    (h : compileSchedule source = .ok compiled) : compiled.executionKey = source.executionKey := by
  obtain ⟨top, tape, cursor, cursor', -, -, rfl⟩ := compileSchedule_ok h
  rfl

theorem compileSchedule_index_le {source : ScenarioScheduleV2} {compiled : CompiledScenarioV2}
    (h : compileSchedule source = .ok compiled) {event : CompiledEventV2} (hevent : event ∈ compiled.events) :
    event.compiledIndex ≤ compiled.events.length := by
  have hindex := List.mem_map_of_mem (f := (·.compiledIndex)) hevent
  rw [compileSchedule_numbered h, List.mem_range] at hindex
  exact hindex.le

theorem index_headroom {index : Nat} (h : index ≤ maxCompiledEvents) : Headroom 23 0x400 index.toUInt64 := by
  intro hall
  have hsmall : index.toUInt64.toNat = index := Nat.mod_eq_of_lt (by unfold maxCompiledEvents at h; omega)
  rw [hsmall] at hall
  unfold maxCompiledEvents at h
  omega

/-- The driver's derivations for an accepted schedule return, with the words they
are taken for, exactly if the execution key and the lanes of the fingerprint
leave room: no event index and no restore index is in the way. Those of v1
return exactly if the run id and the event index leave room. -/
theorem seeds_derived_iff (source : ScenarioScheduleV2) (d : Drive) (scenarioSeed runId eventIndex : UInt64) :
    (compileSchedule source = .ok d.compiled →
      (∀ event ∈ d.compiled.events,
        DriveState.eventNamespaceChecked d event.compiledIndex = some (DriveState.eventNamespace d event.compiledIndex) ↔
          SeedsFit source.executionKey d.fingerprint) ∧
        (DriveState.cleanupNamespaceChecked d = some (DriveState.cleanupNamespace d) ↔
          SeedsFit source.executionKey d.compiledFingerprint)) ∧
      (derivePolicySeedChecked scenarioSeed runId eventIndex = some (derivePolicySeed scenarioSeed runId eventIndex) ↔
        Headroom 13 0x100 runId ∧ Headroom 31 0x200 eventIndex) := by
  constructor
  · intro h
    have hfew := compileSchedule_few h
    have hkey := compileSchedule_key h
    constructor
    · intro event hevent
      have hroom := index_headroom ((compileSchedule_index_le h hevent).trans hfew)
      unfold DriveState.eventNamespaceChecked DriveState.eventNamespace
      rw [deriveSchedulePolicySeedChecked_eq, hkey, Option.ite_some_none_eq_some]
      simp only [hroom, and_true]
    · have hroom := index_headroom hfew
      unfold DriveState.cleanupNamespaceChecked DriveState.cleanupNamespace
      rw [deriveSchedulePolicySeedChecked_eq, hkey, Option.ite_some_none_eq_some]
      simp only [hroom, and_true]
  · rw [derivePolicySeedChecked_eq, Option.ite_some_none_eq_some]
    simp only [and_true]

/-- A schedule of one removal, and the drive of it. -/
def keyed (executionKey : UInt64) : ScenarioScheduleV2 where
  version := 2
  seed := 7
  executionKey
  isolation := .live
  cleanup := .leave
  phases := [⟨none, 0, [.removeFault "web" .upstream "loss"]⟩]
  repeatBlock := none

def keyedDrive (executionKey : UInt64) : Drive where
  compiled := {
    compilerSemanticsVersion
    seed := 7
    executionKey
    isolation := .live
    cleanup := .leave
    events := [⟨0, .top 0, 0, .removeFault "web" .upstream "loss"⟩]
    totalDurationNs := 0 }
  fingerprint := List.replicate 32 0
  compiledFingerprint := List.replicate 32 0
  epoch := 0

theorem keyed_compiles (executionKey : UInt64) :
    compileSchedule (keyed executionKey) = .ok (keyedDrive executionKey).compiled := rfl

theorem seeds_derived_iff_keyed :
    DriveState.cleanupNamespaceChecked (keyedDrive 1) = some (DriveState.cleanupNamespace (keyedDrive 1)) :=
  (((seeds_derived_iff (keyed 1) (keyedDrive 1) 7 1 0).1 (keyed_compiles 1)).2).2 (by decide)

/-- The largest execution key: the first event of the schedule panics. -/
theorem seeds_overflow :
    ¬ ((∀ (source : ScenarioScheduleV2) (d : Drive), compileSchedule source = .ok d.compiled →
        d.fingerprint.length = 32 → d.compiledFingerprint.length = 32 →
        (∀ event ∈ d.compiled.events, (DriveState.eventNamespaceChecked d event.compiledIndex).isSome) ∧
          (DriveState.cleanupNamespaceChecked d).isSome) ∧
      ∀ scenarioSeed runId eventIndex : UInt64, (derivePolicySeedChecked scenarioSeed runId eventIndex).isSome) := by
  intro h
  have hdriven := h.1 (keyed 0xffffffffffffffff) (keyedDrive 0xffffffffffffffff) (keyed_compiles _) rfl rfl
  have hevent := hdriven.1 ⟨0, .top 0, 0, .removeFault "web" .upstream "loss"⟩ List.mem_cons_self
  exact absurd hevent (by decide)

end Eggchaos
