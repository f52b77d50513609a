import Eggchaos.ScheduleWire
import Eggchaos.Transition
/-!
# Plans stay valid

The faults of a plan are private: a plan comes out of `new`, out of a serialized
plan, or out of another plan by `with_fault`, `without_fault` or `replace_fault`.
Each of these leaves a valid plan behind (`Reached.valid`), so the engine of a
published plan always compiles (`replace_compiles`).
-/

namespace Eggchaos
open Lib

/-! ## Serialized plans -/

/-- The scalars of a serialized fault kind, as its format reads them: an id, a
probability or a count that must not be zero is not checked yet. A missing `after`
is the default. -/
inductive FaultKindData where
  | latency (delay jitter : Nat) (maxBufferBytes : UInt64)
  | bandwidth (bytesPerSecond burstBytes : UInt64)
  | blackhole (closeAfter : Option Nat)
  | limitData (bytes : UInt64)
  | slowClose (delay : Nat)
  | slice (averageSize variation : UInt64) (delay : Nat)
  | disconnect (after : Option Nat) (hardReset : Bool)
  | streamLoss (lossRate correlation : Binary64)
deriving DecidableEq, Repr

structure FaultSpecData where
  id : String
  probability : Binary64
  kind : FaultKindData
deriving DecidableEq, Repr

/-- The `Helper` that a plan is read through. -/
structure FaultPlanData where
  faults : List FaultSpecData
deriving DecidableEq, Repr

/-- `FaultId::deserialize`. -/
def FaultId.deserialize (raw : String) : Except String FaultId := (FaultId.new raw).mapError ValidationError.message

/-- `Probability::deserialize`. -/
def Probability.deserialize (raw : Binary64) : Except String Probability :=
  (Probability.new raw).mapError ValidationError.message

/-- `NonZeroU64::deserialize`. -/
def NonZeroU64.deserialize (raw : UInt64) : Except String NonZeroU64 :=
  Wire.nonzero "invalid value: integer `0`, expected a nonzero u64" raw

/-- The derived `FaultKind::deserialize`. -/
def FaultKind.deserialize : FaultKindData → Except String FaultKind
  | .latency delay jitter maxBufferBytes => do
    let maxBufferBytes ← NonZeroU64.deserialize maxBufferBytes
    return .latency ⟨delay, jitter, maxBufferBytes⟩
  | .bandwidth bytesPerSecond burstBytes => do
    let bytesPerSecond ← NonZeroU64.deserialize bytesPerSecond
    let burstBytes ← NonZeroU64.deserialize burstBytes
    return .bandwidth ⟨bytesPerSecond, burstBytes⟩
  | .blackhole closeAfter => return .blackhole ⟨closeAfter⟩
  | .limitData bytes => do
    let bytes ← NonZeroU64.deserialize bytes
    return .limitData ⟨bytes⟩
  | .slowClose delay => return .slowClose ⟨delay⟩
  | .slice averageSize variation delay => do
    let averageSize ← NonZeroU64.deserialize averageSize
    return .slice ⟨averageSize, variation.toNat, delay⟩
  | .disconnect after hardReset => return .disconnect ⟨after.getD 0, hardReset⟩
  | .streamLoss lossRate correlation => do
    let lossRate ← Probability.deserialize lossRate
    let correlation ← Probability.deserialize correlation
    return .streamLoss ⟨lossRate, correlation⟩

/-- The derived `FaultSpec::deserialize`. -/
def FaultSpec.deserialize (data : FaultSpecData) : Except String FaultSpec := do
  let id ← FaultId.deserialize data.id
  let probability ← Probability.deserialize data.probability
  let kind ← FaultKind.deserialize data.kind
  return ⟨id, probability, kind⟩

namespace FaultPlan

/-- `FaultPlan::deserialize`: the plan is built by `new`. -/
def deserialize (data : FaultPlanData) : Except String FaultPlan := do
  let faults ← data.faults.mapM FaultSpec.deserialize
  (FaultPlan.new faults).mapError ValidationError.message

/-! ## The plans there are -/

/-- The plans that the public operations build, in any order. A failed operation
builds none. -/
inductive Reached : FaultPlan → Prop
  | new {faults : List FaultSpec} {plan} (h : FaultPlan.new faults = .ok plan) : Reached plan
  | deserialize {data : FaultPlanData} {plan} (h : FaultPlan.deserialize data = .ok plan) : Reached plan
  | withFault {plan next} (h : Reached plan) (fault : FaultSpec) (hok : plan.withFault fault = .ok next) : Reached next
  | withoutFault {plan} (h : Reached plan) (id : String) : Reached (plan.withoutFault id)
  | replaceFault {plan next} (h : Reached plan) (fault : FaultSpec) (hok : plan.replaceFault fault = .ok next) :
    Reached next

/-! ## One operation -/

section
variable {plan next : FaultPlan} {fault old : FaultSpec} {before after : List FaultSpec}

theorem get_eq_none_iff : plan.get fault.id.value = none ↔ ∀ other ∈ plan.faults, other.id ≠ fault.id := by
  simp [get, List.find?_eq_none, FaultId.value_inj]

theorem withFault_eq_ok_iff :
    plan.withFault fault = .ok next ↔
      next = ⟨plan.faults ++ [fault]⟩ ∧ plan.faults.length < maxStreamFaults ∧
        (∀ other ∈ plan.faults, other.id ≠ fault.id) ∧ fault.Sound := by
  unfold withFault
  split
  · next hfull => exact iff_of_false (by simp) fun h => absurd h.2.1 (Nat.not_lt.2 hfull)
  next hroom =>
  split
  · next htaken =>
    refine iff_of_false (by simp) fun h => ?_
    rw [get_eq_none_iff.2 h.2.2.1] at htaken
    cases htaken
  next hfree =>
  split
  · next e he => exact iff_of_false (by simp) fun h => FaultSpec.not_sound he h.2.2.2
  · next hok =>
    have hothers := get_eq_none_iff.1 (Option.not_isSome_iff_eq_none.1 hfree)
    have hsound := FaultSpec.validate_iff.1 hok
    constructor
    · intro h
      cases h
      exact ⟨rfl, Nat.lt_of_not_le hroom, hothers, hsound⟩
    · rintro ⟨rfl, -⟩
      rfl

/-- The place of a fault with this id is taken over. -/
theorem replaceFault_split (h : plan.Valid) (hfaults : plan.faults = before ++ old :: after)
    (hid : old.id = fault.id) :
    plan.replaceFault fault = .ok next ↔ next = ⟨before ++ fault :: after⟩ ∧ fault.Sound := by
  have hkeyed : Keyed FaultSpec.id (before ++ old :: after) := hfaults ▸ h.distinct
  have hbefore : ∀ other ∈ before, other.id ≠ fault.id := fun other hother =>
    hid ▸ hkeyed.others other (List.mem_append_left after hother)
  have hfound : plan.faults.findIdx? (·.id = fault.id) = some before.length := by
    rw [hfaults]
    exact findIdx?_split (by simpa using hid) (by simpa using hbefore)
  have hset : plan.faults.set before.length fault = before ++ fault :: after := by
    rw [hfaults, List.set_append_right _ _ le_rfl, Nat.sub_self, List.set_cons_zero]
  unfold replaceFault
  rw [← FaultSpec.validate_iff]
  cases hvalid : fault.validate with
  | error e => simp
  | ok _ =>
    simp only [hfound, hset, Except.ok.injEq, and_true]
    exact eq_comm

/-- Without one the fault is appended. -/
theorem replaceFault_absent (habsent : ∀ other ∈ plan.faults, other.id ≠ fault.id) :
    plan.replaceFault fault = .ok next ↔ plan.withFault fault = .ok next := by
  have hnone : plan.faults.findIdx? (·.id = fault.id) = none := by simpa using habsent
  unfold replaceFault
  rw [hnone]
  cases hvalid : fault.validate with
  | error e =>
    exact iff_of_false (by simp) fun h => FaultSpec.not_sound hvalid (withFault_eq_ok_iff.1 h).2.2.2
  | ok _ => rfl

theorem withoutFault_split (h : plan.Valid) (hfaults : plan.faults = before ++ fault :: after) :
    plan.withoutFault fault.id.value = ⟨before ++ after⟩ := by
  have hothers := Keyed.others (hfaults ▸ h.distinct)
  rw [withoutFault, hfaults]
  congr 1
  refine filter_split (by simp) ?_
  intro other hother
  simpa [FaultId.value_inj] using hothers other hother

theorem withoutFault_absent {id : String} (habsent : ∀ fault ∈ plan.faults, fault.id.value ≠ id) :
    plan.withoutFault id = plan := by
  rw [withoutFault, List.filter_eq_self.2 (by simpa using habsent)]

/-! ## Validity is kept -/

theorem Valid.withFault (h : plan.Valid) (hok : plan.withFault fault = .ok next) : next.Valid := by
  obtain ⟨rfl, hroom, hothers, hsound⟩ := withFault_eq_ok_iff.1 hok
  refine ⟨?_, h.distinct.append_fresh hothers, ?_⟩
  · rw [List.length_append, List.length_singleton]
    exact hroom
  · intro other hother
    rcases List.mem_append.1 hother with hother | hother
    · exact h.sound other hother
    · rw [List.mem_singleton.1 hother]
      exact hsound

theorem Valid.withoutFault (h : plan.Valid) (id : String) : (plan.withoutFault id).Valid where
  few := (List.length_filter_le _ _).trans h.few
  distinct := h.distinct.sublist List.filter_sublist
  sound other hother := h.sound other (List.mem_of_mem_filter hother)

theorem Valid.replaceFault (h : plan.Valid) (hok : plan.replaceFault fault = .ok next) : next.Valid := by
  by_cases htaken : ∃ old ∈ plan.faults, old.id = fault.id
  · obtain ⟨old, hmem, hid⟩ := htaken
    obtain ⟨before, after, hfaults⟩ := List.append_of_mem hmem
    have hkeyed : Keyed FaultSpec.id (before ++ old :: after) := hfaults ▸ h.distinct
    obtain ⟨rfl, hsound⟩ := (replaceFault_split h hfaults hid).1 hok
    refine ⟨?_, hkeyed.replace hid.symm, ?_⟩
    · have hfew := h.few
      rw [hfaults] at hfew
      simpa using hfew
    · intro other hother
      rcases List.mem_append.1 hother with hother | hother
      · exact h.sound other (by rw [hfaults]; exact List.mem_append_left _ hother)
      · rcases List.mem_cons.1 hother with rfl | hother
        · exact hsound
        · exact h.sound other (by rw [hfaults]; exact List.mem_append_right _ (List.mem_cons_of_mem old hother))
  · have habsent : ∀ other ∈ plan.faults, other.id ≠ fault.id := fun other hother hid => htaken ⟨other, hother, hid⟩
    exact h.withFault ((replaceFault_absent habsent).1 hok)

theorem deserialize_valid {data : FaultPlanData} (h : FaultPlan.deserialize data = .ok plan) : plan.Valid := by
  obtain ⟨faults, -, h⟩ := except_bind_ok h
  exact validate_iff.1 (new_eq_ok_iff.1 (except_mapError_ok h)).2

theorem Reached.valid (h : Reached plan) : plan.Valid := by
  induction h with
  | new h => exact validate_iff.1 (new_eq_ok_iff.1 h).2
  | deserialize h => exact deserialize_valid h
  | withFault _ fault hok ih => exact ih.withFault hok
  | withoutFault _ id ih => exact ih.withoutFault id
  | replaceFault _ fault hok ih => exact ih.replaceFault hok

/-- Taking a fault out and putting it back moves it to the end. -/
theorem Valid.moved (h : plan.Valid) (hfaults : plan.faults = before ++ fault :: after) :
    (plan.withoutFault fault.id.value).withFault fault = .ok ⟨before ++ after ++ [fault]⟩ := by
  have hkeyed : Keyed FaultSpec.id (before ++ fault :: after) := hfaults ▸ h.distinct
  have hfew := h.few
  rw [hfaults, List.length_append, List.length_cons] at hfew
  rw [withoutFault_split h hfaults, withFault_eq_ok_iff]
  refine ⟨rfl, ?_, hkeyed.others, h.sound fault (by simp [hfaults])⟩
  rw [List.length_append]
  omega

end

end FaultPlan

/-! ## A published plan compiles -/

/-- The `expect` of a transition does not fail: `replace` installs what
`new_with_arc_plan` makes of the published plan. -/
theorem DirectionEngine.replace_compiles (old : DirectionEngine) (snapshot : PublishedPolicy) (proxy : String)
    (connectionKey : UInt64) (direction : Direction) (c : Clock) :
    ∃ e, newWithArcPlan snapshot.plan ⟨snapshot.seedNamespace, proxy, connectionKey, direction⟩ old.termHandle c =
        (.ok e, c.tick) ∧
      old.replace snapshot proxy connectionKey direction c = (e.absorbEvidence old.evidenceNow, c.tick) :=
  ⟨_, newWithArcPlan_valid snapshot.valid _ _ _, rfl⟩

/-- Whatever operations a plan comes from, it can be published. -/
theorem FaultPlan.Reached.publishes {plan : FaultPlan} (h : Reached plan) (policy : LivePolicy) (seedNamespace : UInt64)
    (hroom : policy.current.generation ≠ u64Max) :
    ∃ next, policy.publish plan seedNamespace = (.ok next, ⟨next⟩) ∧ next.plan = plan := by
  rw [LivePolicy.publish_of_valid (validate_iff.2 h.valid), LivePolicy.swap, if_neg hroom]
  exact ⟨_, rfl, rfl⟩

/-! ## What the operations move -/

namespace FaultPlan

/-- Every plan there is passes validation, which agrees with `new`. Replacing a
fault keeps its place, removing an id removes that fault alone, and a fault put
back stands at the end. Every other fault stays as and where it is. -/
theorem operations_keep_plans {plan : FaultPlan} (h : Reached plan) :
    (plan.validate = .ok () ∧ plan.Valid) ∧
    (∀ faults next, FaultPlan.new faults = .ok next ↔ next = ⟨faults⟩ ∧ next.validate = .ok ()) ∧
    (∀ before old after fault next, plan.faults = before ++ old :: after → old.id = fault.id →
      (plan.replaceFault fault = .ok next ↔ next = ⟨before ++ fault :: after⟩ ∧ fault.validate = .ok ())) ∧
    (∀ fault next, (∀ other ∈ plan.faults, other.id ≠ fault.id) → plan.replaceFault fault = .ok next →
      next = ⟨plan.faults ++ [fault]⟩) ∧
    (∀ before fault after, plan.faults = before ++ fault :: after →
      plan.withoutFault fault.id.value = ⟨before ++ after⟩ ∧
      (plan.withoutFault fault.id.value).withFault fault = .ok ⟨before ++ after ++ [fault]⟩) ∧
    ∀ id, (∀ fault ∈ plan.faults, fault.id.value ≠ id) → plan.withoutFault id = plan := by
  have hvalid := h.valid
  refine ⟨⟨validate_iff.2 hvalid, hvalid⟩, ?_, ?_, ?_, ?_, ?_⟩
  · intro faults next
    rw [new_eq_ok_iff]
    refine and_congr_left fun _ => ?_
    cases next
    simp
  · intro before old after fault next hfaults hid
    rw [FaultSpec.validate_iff]
    exact replaceFault_split hvalid hfaults hid
  · intro fault next habsent hok
    exact (withFault_eq_ok_iff.1 ((replaceFault_absent habsent).1 hok)).1
  · intro before fault after hfaults
    exact ⟨withoutFault_split hvalid hfaults, hvalid.moved hfaults⟩
  · intro id habsent
    exact withoutFault_absent habsent

open StreamRun in
/-- A latency that an edit has made longer, before a cut. -/
def editedPlan : FaultPlan := ⟨[slow 9 oneByte, cut 0 true]⟩

open StreamRun in
theorem editedPlan_reached : Reached editedPlan := by
  have hnew : FaultPlan.new [slow 5 oneByte] = .ok ⟨[slow 5 oneByte]⟩ := rfl
  have hfirst : Reached ⟨[slow 5 oneByte]⟩ := .new hnew
  have hsecond : Reached ⟨[slow 5 oneByte, cut 0 true]⟩ := hfirst.withFault (cut 0 true) rfl
  exact hsecond.replaceFault (slow 9 oneByte) rfl

open StreamRun in
/-- The edited plan: its latency is edited once more, taken out and put back. -/
theorem operations_keep_plans_edited :
    editedPlan.validate = .ok () ∧
      FaultPlan.new [slow 9 oneByte, cut 0 true] = .ok editedPlan ∧
      editedPlan.replaceFault (slow 5 oneByte) = .ok ⟨[slow 5 oneByte, cut 0 true]⟩ ∧
      (editedPlan.withoutFault "slow").withFault (slow 9 oneByte) = .ok ⟨[cut 0 true, slow 9 oneByte]⟩ ∧
      editedPlan.withoutFault "other" = editedPlan := by
  obtain ⟨⟨hvalid, -⟩, hnew, hreplaced, -, hremoved, hkept⟩ := operations_keep_plans editedPlan_reached
  have hslow := (hremoved [] (slow 9 oneByte) [cut 0 true] rfl).2
  exact ⟨hvalid, (hnew _ _).2 ⟨rfl, hvalid⟩, (hreplaced [] (slow 9 oneByte) [cut 0 true] (slow 5 oneByte) _ rfl rfl).2
    ⟨rfl, rfl⟩, hslow, hkept "other" (by decide)⟩

end FaultPlan

end Eggchaos
