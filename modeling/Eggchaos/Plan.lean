import Eggchaos.Lib.Keyed
import Eggchaos.Lib.Machine
/-!
# Fault plans

The native fault model of `plan.rs`: identities, probabilities, the eight fault
kinds with their configurations, ordered plans and their validation.

A `FaultId` and a `Probability` can only be built through their checks, so both
carry the check as a field. A `FaultSpec` has public fields and a plan is
checked as a whole by `FaultPlan.validate`, so a plan here is any list of
faults and the theorems say when they need it validated.
-/

namespace Eggchaos
open Lib

/-- The direction in which application bytes travel through a proxy. -/
inductive Direction where
  | upstream
  | downstream
deriving DecidableEq, Repr

/-- `Direction::as_str`. -/
def Direction.asStr : Direction → String
  | .upstream => "upstream"
  | .downstream => "downstream"

def maxStreamFaultDuration : Nat := 86400 * 10 ^ 9
def maxStreamFaults : Nat := 256
def streamLossGrainBytes : Nat := 32 * 1024

/-- A fault identity of 1 to 128 bytes. -/
structure FaultId where
  value : String
  nonempty : value ≠ ""
  short : value.utf8ByteSize ≤ 128
deriving DecidableEq, Repr

/-- A finite binary64 value in `[0, 1]`, as the rational it denotes. -/
structure Probability where
  get : ℚ
  nonneg : 0 ≤ get
  le_one : get ≤ 1
deriving DecidableEq, Repr

def Probability.one : Probability := ⟨1, by decide, by decide⟩
def Probability.zero : Probability := ⟨0, by decide, by decide⟩

structure NonZeroU64 where
  get : Nat
  pos : 0 < get
  le_max : get ≤ u64Max
deriving DecidableEq, Repr

/-! ## Fault kinds -/

structure LatencyConfig where
  delay : Nat
  jitter : Nat
  maxBufferBytes : NonZeroU64
deriving DecidableEq, Repr

structure BandwidthConfig where
  bytesPerSecond : NonZeroU64
  burstBytes : NonZeroU64
deriving DecidableEq, Repr

structure BlackholeConfig where
  closeAfter : Option Nat
deriving DecidableEq, Repr

structure LimitDataConfig where
  bytes : NonZeroU64
deriving DecidableEq, Repr

structure SlowCloseConfig where
  delay : Nat
deriving DecidableEq, Repr

structure SliceConfig where
  averageSize : NonZeroU64
  variation : Nat
  delay : Nat
deriving DecidableEq, Repr

structure DisconnectConfig where
  after : Nat
  hardReset : Bool
deriving DecidableEq, Repr

structure StreamLossConfig where
  lossRate : Probability
  correlation : Probability
deriving DecidableEq, Repr

inductive FaultKind where
  | latency (c : LatencyConfig)
  | bandwidth (c : BandwidthConfig)
  | blackhole (c : BlackholeConfig)
  | limitData (c : LimitDataConfig)
  | slowClose (c : SlowCloseConfig)
  | slice (c : SliceConfig)
  | disconnect (c : DisconnectConfig)
  | streamLoss (c : StreamLossConfig)
deriving DecidableEq, Repr

/-- `FaultKind::type_name`. -/
def FaultKind.typeName : FaultKind → String
  | .latency _ => "latency"
  | .bandwidth _ => "bandwidth"
  | .blackhole _ => "blackhole"
  | .limitData _ => "limit-data"
  | .slowClose _ => "slow-close"
  | .slice _ => "slice"
  | .disconnect _ => "disconnect"
  | .streamLoss _ => "stream-loss"

instance sevenSlots : NeZero 7 := ⟨by decide⟩

/-- The slots of the seven activation counters (`FaultKind::type_index`);
stream loss owns none. -/
def FaultKind.typeIndex : FaultKind → Option (Fin 7)
  | .latency _ => some 0
  | .bandwidth _ => some 1
  | .blackhole _ => some 2
  | .limitData _ => some 3
  | .slowClose _ => some 4
  | .slice _ => some 5
  | .disconnect _ => some 6
  | .streamLoss _ => none

structure FaultSpec where
  id : FaultId
  probability : Probability
  kind : FaultKind
deriving DecidableEq, Repr

/-! ## Validation -/

inductive ValidationError where
  | probabilityOutOfRange
  | invalidFaultId
  | duplicateFaultId (id : String)
  | zeroCapacity
  | invalidSlice
  | invalidRate
  | zeroLimit
  | durationTooLong
  | tooManyFaults
  | generationOverflow
deriving DecidableEq, Repr

/-- The `Display` text of a validation error. -/
def ValidationError.message : ValidationError → String
  | .probabilityOutOfRange => "probability must be finite and between 0 and 1"
  | .invalidFaultId => "fault id must be 1..=128 bytes"
  | .duplicateFaultId id => "duplicate fault id: " ++ id
  | .zeroCapacity => "fault buffer capacity must be non-zero"
  | .invalidSlice => "slice variation must be smaller than average size"
  | .invalidRate => "bandwidth rate and burst must be non-zero"
  | .zeroLimit => "limit_data bytes must be non-zero"
  | .durationTooLong => "fault delay duration must be at most 24 hours"
  | .tooManyFaults => "fault plans are limited to 256 stages"
  | .generationOverflow => "policy generation overflowed"

/-- `FaultId::new`. -/
def FaultId.new (value : String) : Except ValidationError FaultId :=
  if h : value ≠ "" ∧ value.utf8ByteSize ≤ 128 then .ok ⟨value, h.1, h.2⟩ else .error .invalidFaultId

/-- A binary64 value as the rational it denotes, `none` where it is not finite. -/
abbrev Binary64 := Option ℚ

def Probability.toBinary64 (p : Probability) : Binary64 := some p.get

theorem unit_nonneg {q : ℚ} (h : 0 ≤ q ∧ q ≤ 1) : 0 ≤ q := h.1
theorem unit_le_one {q : ℚ} (h : 0 ≤ q ∧ q ≤ 1) : q ≤ 1 := h.2

/-- `Probability::new`. -/
def Probability.new : Binary64 → Except ValidationError Probability
  | some value =>
    if h : 0 ≤ value ∧ value ≤ 1 then .ok ⟨value, unit_nonneg h, unit_le_one h⟩ else .error .probabilityOutOfRange
  | none => .error .probabilityOutOfRange

theorem Probability.new_toBinary64 (p : Probability) : Probability.new p.toBinary64 = .ok p := by
  have h : 0 ≤ p.get ∧ p.get ≤ 1 := ⟨p.nonneg, p.le_one⟩
  simp [Probability.new, Probability.toBinary64, h]

theorem FaultId.new_value (id : FaultId) : FaultId.new id.value = .ok id := by
  have h : id.value ≠ "" ∧ id.value.utf8ByteSize ≤ 128 := ⟨id.nonempty, id.short⟩
  simp [FaultId.new, h]

theorem FaultId.value_inj {a b : FaultId} : a.value = b.value ↔ a = b := by
  cases a
  cases b
  simp

def durationExceedsMax (value : Nat) : Bool := maxStreamFaultDuration < value

/-- The durations of a fault that the 24 h cap bounds. -/
def FaultKind.durations : FaultKind → List Nat
  | .latency c => [c.delay, c.jitter]
  | .blackhole c => c.closeAfter.toList
  | .slowClose c => [c.delay]
  | .slice c => [c.delay]
  | .disconnect c => [c.after]
  | .bandwidth _ | .limitData _ | .streamLoss _ => []

/-- `FaultSpec::validate`. The checks on `NonZeroU64` values and on
probabilities cannot fail, since those types carry them. -/
def FaultSpec.validate (fault : FaultSpec) : Except ValidationError Unit :=
  if fault.kind.durations.any durationExceedsMax then .error .durationTooLong
  else match fault.kind with
    | .slice c => if c.averageSize.get ≤ c.variation then .error .invalidSlice else .ok ()
    | _ => .ok ()

/-- The bounds of a valid fault. -/
structure FaultSpec.Sound (fault : FaultSpec) : Prop where
  durations : ∀ d ∈ fault.kind.durations, d ≤ maxStreamFaultDuration
  variation : ∀ c, fault.kind = .slice c → c.variation < c.averageSize.get

theorem FaultSpec.validate_iff {fault : FaultSpec} : fault.validate = .ok () ↔ fault.Sound := by
  unfold validate
  split
  · next hlong =>
    obtain ⟨d, hd, hexceeds⟩ := List.any_eq_true.1 hlong
    refine iff_of_false (by simp) fun hsound => ?_
    exact absurd (of_decide_eq_true hexceeds) (Nat.not_lt.2 (hsound.durations d hd))
  · next hshort =>
    have hdurations : ∀ d ∈ fault.kind.durations, d ≤ maxStreamFaultDuration := fun d hd =>
      Nat.le_of_not_lt fun hlong => hshort (List.any_eq_true.2 ⟨d, hd, decide_eq_true hlong⟩)
    split
    · next c hkind =>
      split
      · next hle =>
        refine iff_of_false (by simp) fun hsound => ?_
        exact absurd (hsound.variation c hkind) (Nat.not_lt.2 hle)
      · next hlt =>
        refine iff_of_true rfl ⟨hdurations, ?_⟩
        intro c' hkind'
        cases hkind.symm.trans hkind'
        exact Nat.lt_of_not_le hlt
    · next hother => exact iff_of_true rfl ⟨hdurations, fun c hkind => absurd hkind (hother c)⟩

theorem FaultSpec.not_sound {fault : FaultSpec} {e : ValidationError} (h : fault.validate = .error e) :
    ¬ fault.Sound := by
  intro hsound
  rw [FaultSpec.validate_iff.2 hsound] at h
  cases h

structure FaultPlan where
  faults : List FaultSpec
deriving DecidableEq, Repr

namespace FaultPlan

def empty : FaultPlan := ⟨[]⟩

def isEmpty (plan : FaultPlan) : Bool := plan.faults.isEmpty

/-- The loop of `validate` over the faults, with the ids seen so far. Unlike `new`
it also checks the probability once more. -/
def validateFrom : List FaultId → List FaultSpec → Except ValidationError Unit
  | _, [] => .ok ()
  | ids, fault :: rest =>
    if fault.id ∈ ids then .error (.duplicateFaultId fault.id.value)
    else match Probability.new fault.probability.toBinary64 with
      | .error e => .error e
      | .ok _ =>
        match fault.validate with
        | .error e => .error e
        | .ok () => validateFrom (fault.id :: ids) rest

/-- `FaultPlan::validate`. -/
def validate (plan : FaultPlan) : Except ValidationError Unit :=
  if maxStreamFaults < plan.faults.length then .error .tooManyFaults
  else validateFrom [] plan.faults

theorem validate_empty : FaultPlan.empty.validate = .ok () := rfl

theorem validateFrom_cons (ids : List FaultId) (fault : FaultSpec) (rest : List FaultSpec) :
    validateFrom ids (fault :: rest) =
      if fault.id ∈ ids then .error (.duplicateFaultId fault.id.value)
      else match fault.validate with
        | .error e => .error e
        | .ok () => validateFrom (fault.id :: ids) rest := by
  simp only [validateFrom, Probability.new_toBinary64]

theorem validateFrom_ok_iff {ids : List FaultId} {faults : List FaultSpec} :
    validateFrom ids faults = .ok () ↔
      Keyed FaultSpec.id faults ∧ (∀ fault ∈ faults, fault.id ∉ ids) ∧ ∀ fault ∈ faults, fault.Sound := by
  induction faults generalizing ids with
  | nil => simp [validateFrom, Keyed]
  | cons fault faults ih =>
    rw [validateFrom_cons, Keyed.cons_iff, List.forall_mem_cons, List.forall_mem_cons]
    split
    · next hseen => exact iff_of_false (by simp) fun h => h.2.1.1 hseen
    next hnew =>
    split
    · next e he => exact iff_of_false (by simp) fun h => FaultSpec.not_sound he h.2.2.1
    · next hok =>
      have hsound := FaultSpec.validate_iff.1 hok
      rw [ih]
      constructor
      · rintro ⟨hkeyed, hseen, hrest⟩
        have hothers : ∀ other ∈ faults, other.id ≠ fault.id ∧ other.id ∉ ids := by simpa using hseen
        exact ⟨⟨fun other h => (hothers other h).1, hkeyed⟩, ⟨hnew, fun other h => (hothers other h).2⟩, hsound, hrest⟩
      · rintro ⟨⟨hothers, hkeyed⟩, ⟨-, hseen⟩, -, hrest⟩
        refine ⟨hkeyed, ?_, hrest⟩
        intro other hother hmem
        rcases List.mem_cons.1 hmem with heq | hmem
        · exact hothers other hother heq
        · exact hseen other hother hmem

/-- What validation checks of a plan. -/
structure Valid (plan : FaultPlan) : Prop where
  few : plan.faults.length ≤ maxStreamFaults
  distinct : Keyed FaultSpec.id plan.faults
  sound : ∀ fault ∈ plan.faults, fault.Sound

theorem validate_iff {plan : FaultPlan} : plan.validate = .ok () ↔ plan.Valid := by
  unfold validate
  split
  · next hmany => exact iff_of_false (by simp) fun h => absurd h.few (Nat.not_le.2 hmany)
  · next hfew =>
    rw [validateFrom_ok_iff]
    constructor
    · rintro ⟨hkeyed, -, hsound⟩
      exact ⟨Nat.le_of_not_lt hfew, hkeyed, hsound⟩
    · intro h
      exact ⟨h.distinct, by simp, h.sound⟩

theorem validate_faults {plan : FaultPlan} (h : plan.validate = .ok ()) :
    ∀ fault ∈ plan.faults, fault.validate = .ok () :=
  fun fault hfault => FaultSpec.validate_iff.2 ((validate_iff.1 h).sound fault hfault)

/-- The loop of `new` over the faults, with the ids seen so far. -/
def newFrom : List FaultId → List FaultSpec → Except ValidationError Unit
  | _, [] => .ok ()
  | ids, fault :: rest =>
    if fault.id ∈ ids then .error (.duplicateFaultId fault.id.value)
    else match fault.validate with
      | .error e => .error e
      | .ok () => newFrom (fault.id :: ids) rest

/-- `FaultPlan::new`. -/
def new (faults : List FaultSpec) : Except ValidationError FaultPlan :=
  if maxStreamFaults < faults.length then .error .tooManyFaults
  else match newFrom [] faults with
    | .error e => .error e
    | .ok () => .ok ⟨faults⟩

/-- A probability carries what `validate` checks once more. -/
theorem newFrom_eq (ids : List FaultId) (faults : List FaultSpec) : newFrom ids faults = validateFrom ids faults := by
  induction faults generalizing ids with
  | nil => rfl
  | cons fault faults ih =>
    rw [validateFrom_cons, newFrom]
    simp only [ih]

/-- The two checks agree. -/
theorem new_eq (faults : List FaultSpec) :
    FaultPlan.new faults = match validate ⟨faults⟩ with
      | .error e => .error e
      | .ok () => .ok ⟨faults⟩ := by
  unfold new validate
  rw [newFrom_eq]
  split
  · rfl
  · rfl

theorem new_eq_ok_iff {faults : List FaultSpec} {plan : FaultPlan} :
    FaultPlan.new faults = .ok plan ↔ plan.faults = faults ∧ plan.validate = .ok () := by
  rw [new_eq]
  constructor
  · intro h
    split at h
    · cases h
    · next hok =>
      cases h
      exact ⟨rfl, hok⟩
  · rintro ⟨rfl, hok⟩
    rw [show (⟨plan.faults⟩ : FaultPlan) = plan from rfl, hok]

/-- `FaultPlan::get`. -/
def get (plan : FaultPlan) (id : String) : Option FaultSpec := plan.faults.find? (·.id.value = id)

/-- `FaultPlan::with_fault`. -/
def withFault (plan : FaultPlan) (fault : FaultSpec) : Except ValidationError FaultPlan :=
  if maxStreamFaults ≤ plan.faults.length then .error .tooManyFaults
  else if (plan.get fault.id.value).isSome then .error (.duplicateFaultId fault.id.value)
  else match fault.validate with
    | .error e => .error e
    | .ok () => .ok ⟨plan.faults ++ [fault]⟩

/-- `FaultPlan::without_fault`. -/
def withoutFault (plan : FaultPlan) (id : String) : FaultPlan := ⟨plan.faults.filter (·.id.value ≠ id)⟩

/-- `FaultPlan::replace_fault`. -/
def replaceFault (plan : FaultPlan) (fault : FaultSpec) : Except ValidationError FaultPlan :=
  match fault.validate with
  | .error e => .error e
  | .ok () =>
    match plan.faults.findIdx? (·.id = fault.id) with
    | some i => .ok ⟨plan.faults.set i fault⟩
    | none => plan.withFault fault

end FaultPlan

end Eggchaos
