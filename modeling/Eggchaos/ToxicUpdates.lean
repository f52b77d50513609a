import Eggchaos.ScheduleWire
import Eggchaos.ToxicTranslation
/-!
# What an update of a toxic changes

`update_toxic` shows the fault as a toxic, lays the attributes of the patch over
its own and makes a fault of the result. Whatever the toxic has no word for is
rewritten on the way, named or not.

`Patched` is what an update is for: the named parameters take their values and
all others stay. `update_keeps_iff` says of which faults that is true.
-/

namespace Eggchaos
open Lib

/-! ## What an update is for -/

/-- A parameter takes its attribute, if that is given, and stays otherwise. -/
def Takes {α β : Type} (given : Option α) (translate : α → β) (old new : β) : Prop := new = (given.map translate).getD old

/-- The named parameters of a fault take their values, and the others stay. -/
def FaultKind.Patched (attrs : ToxicAttributes) : FaultKind → FaultKind → Prop
  | .latency c, .latency c' => Takes attrs.latency fromMillis c.delay c'.delay ∧
      Takes attrs.jitter fromMillis c.jitter c'.jitter ∧ c'.maxBufferBytes = c.maxBufferBytes
  | .bandwidth c, .bandwidth c' =>
    Takes attrs.rate (fun rate => kibibytes (atLeastOne rate)) c.bytesPerSecond c'.bytesPerSecond ∧
      c'.burstBytes = c.burstBytes
  | .blackhole c, .blackhole c' =>
    Takes attrs.timeout (fun timeout => if 0 < timeout then some (fromMillis timeout) else none) c.closeAfter c'.closeAfter
  | .limitData c, .limitData c' => Takes attrs.bytes atLeastOne c.bytes c'.bytes
  | .slowClose c, .slowClose c' => Takes attrs.delay fromMillis c.delay c'.delay
  | .slice c, .slice c' => Takes attrs.averageSize atLeastOne c.averageSize c'.averageSize ∧
      Takes attrs.sizeVariation UInt64.toNat c.variation c'.variation ∧ Takes attrs.delay fromMicros c.delay c'.delay
  | .disconnect c, .disconnect c' => Takes attrs.timeout fromMillis c.after c'.after ∧ c'.hardReset = c.hardReset
  | .streamLoss c, .streamLoss c' =>
    Takes attrs.lossRate (fun value => value.clampUnit.toBinary64) (some c.lossRate.get) (some c'.lossRate.get) ∧
      Takes attrs.correlation (fun value => value.clampUnit.toBinary64) (some c.correlation.get) (some c'.correlation.get)
  | _, _ => False

/-- The attributes that an update names. -/
def ToxicUpdate.named (patch : ToxicUpdate) : ToxicAttributes := patch.attributes.getD {}

/-- What an update is to make of a fault. -/
structure ToxicUpdate.Patches (patch : ToxicUpdate) (before after : FaultSpec) : Prop where
  id : after.id = before.id
  kind : before.kind.Patched patch.named after.kind
  probability : Takes patch.toxicity (fun toxicity => toxicity.clampUnit.toBinary64) (some before.probability.get)
    (some after.probability.get)

/-! ## What the translation keeps -/

/-- The faults that an update naming these attributes leaves alone otherwise:
what it does not name is whole in the units of a toxic, and what a toxic has no
word for is what the adapter sets. -/
def FaultKind.Kept (attrs : ToxicAttributes) : FaultKind → Prop
  | .latency c => c.maxBufferBytes = toxicBuffer ∧ (attrs.latency = none → 1000000 ∣ c.delay) ∧
      (attrs.jitter = none → 1000000 ∣ c.jitter)
  | .bandwidth c => c.burstBytes = toxicBuffer ∧ (attrs.rate = none → 1024 ∣ c.bytesPerSecond.get)
  | .blackhole c => attrs.timeout = none → ∀ after ∈ c.closeAfter, 0 < after ∧ 1000000 ∣ after
  | .limitData _ | .streamLoss _ => True
  | .slowClose c => attrs.delay = none → 1000000 ∣ c.delay
  | .slice c => attrs.delay = none → 1000 ∣ c.delay
  | .disconnect c => c.hardReset = true ∧ (attrs.timeout = none → 1000000 ∣ c.after)

/-- A parameter comes back if it is named, or if its translation does. -/
theorem takes_iff {α β : Type} (translate : α → β) {shown : α} {whole : Prop} {old : β} (default : α)
    (hwhole : translate shown = old ↔ whole) (given : Option α) :
    Takes given translate old (translate ((given.or (some shown)).getD default)) ↔ (given = none → whole) := by
  cases given with
  | none => simp [Takes, hwhole]
  | some value => simp [Takes]

/-- A blackhole shows no deadline as the deadline zero. -/
theorem closeAfter_kept {closeAfter : Option Nat} (h : ∀ after ∈ closeAfter, after ≤ maxStreamFaultDuration)
    (given : Option UInt64) :
    Takes given (fun timeout => if 0 < timeout then some (fromMillis timeout) else none) closeAfter
        (((given.or (some ((closeAfter.map asMillis).getD 0))).filter (0 < ·)).map fromMillis) ↔
      (given = none → ∀ after ∈ closeAfter, 0 < after ∧ 1000000 ∣ after) := by
  cases given with
  | some timeout =>
    refine iff_of_true ?_ (fun hnone => absurd hnone (Option.some_ne_none timeout))
    by_cases htimeout : 0 < timeout <;> simp [Takes, Option.filter, htimeout]
  | none =>
    cases closeAfter with
    | none => simp [Takes]
    | some after =>
      have hback := fromMillis_asMillis (h after rfl)
      simp only [Takes, Option.map_none, Option.getD_none, Option.none_or, Option.map_some, Option.getD_some,
        Option.mem_some_iff, forall_eq', true_imp_iff]
      by_cases hshown : 0 < asMillis after
      · have hpos : 0 < after := by
          refine Nat.pos_of_ne_zero ?_
          rintro rfl
          exact absurd hshown (by decide)
        simp [Option.filter, hshown, hback, hpos]
      · -- less than a millisecond: the deadline is lost
        have hzero : asMillis after = 0 := by grind
        have hnone : ((some (0 : UInt64)).filter (0 < ·)).map fromMillis = none := rfl
        rw [hzero] at hback ⊢
        rw [hnone]
        refine iff_of_false (Option.some_ne_none after).symm ?_
        rintro ⟨hpos, hwhole⟩
        exact absurd (hback.2 hwhole) (Nat.ne_of_lt hpos)

theorem attrsFromKind_streamLoss {c : StreamLossConfig} {profile : CompatProfile} {name : String} {base : ToxicAttributes}
    (h : attrsFromKind (.streamLoss c) profile = .ok (name, base)) : profile.acceptsPacketLoss = true ∧
      name = "packet_loss" ∧
      base = { lossRate := some (.finite c.lossRate.get), correlation := some (.finite c.correlation.get) } := by
  cases haccepts : profile.acceptsPacketLoss with
  | false =>
    simp only [attrsFromKind, haccepts, Bool.false_eq_true, if_false] at h
    cases h
  | true =>
    simp only [attrsFromKind, haccepts, if_true] at h
    cases h
    exact ⟨rfl, rfl, rfl⟩

theorem unitProbability_ok {value : F64} {p : Probability} (h : unitProbability value = .ok p) :
    some p.get = value.toBinary64 :=
  Probability.toBinary64_of_new (except_mapError_ok h)

/-- A probability comes back as it is. -/
theorem takes_probability {given : Option F64} {old new : Probability}
    (h : unitProbability ((given.or (some (.finite old.get))).getD (.finite 0)).clampUnit = .ok new) :
    Takes given (fun value => value.clampUnit.toBinary64) (some old.get) (some new.get) := by
  cases given with
  | none =>
    rw [Option.none_or, Option.getD_some, unitProbability_get] at h
    cases h
    rfl
  | some value => exact unitProbability_ok h

/-- What an update makes of a valid fault is what it is for, exactly when the
translation keeps the fault. -/
theorem patched_iff {profile : CompatProfile} {fault : FaultSpec} (hvalid : fault.validate = .ok ()) {name : String}
    {base attrs : ToxicAttributes} (hbase : attrsFromKind fault.kind profile = .ok (name, base)) {kind : FaultKind}
    (hkind : kindFromAttrs name (mergeAttributes name base attrs) profile = .ok kind) :
    fault.kind.Patched attrs kind ↔ fault.kind.Kept attrs := by
  have hdurations : ∀ duration ∈ fault.kind.durations, duration ≤ maxStreamFaultDuration :=
    (FaultSpec.validate_iff.1 hvalid).durations
  obtain ⟨id, probability, old⟩ := fault
  cases old with
  | latency c =>
    cases hbase
    cases hkind
    have hdelay : c.delay ≤ maxStreamFaultDuration := hdurations _ (by simp [FaultKind.durations])
    have hjitter : c.jitter ≤ maxStreamFaultDuration := hdurations _ (by simp [FaultKind.durations])
    have h₁ := takes_iff fromMillis 0 (fromMillis_asMillis hdelay) attrs.latency
    have h₂ := takes_iff fromMillis 0 (fromMillis_asMillis hjitter) attrs.jitter
    constructor
    · rintro ⟨h, h', hbuffer⟩
      exact ⟨hbuffer.symm, h₁.1 h, h₂.1 h'⟩
    · rintro ⟨hbuffer, h, h'⟩
      exact ⟨h₁.2 h, h₂.2 h', hbuffer.symm⟩
  | bandwidth c =>
    cases hbase
    cases hkind
    have h₁ := takes_iff (fun rate => kibibytes (atLeastOne rate)) 1 (kibibytes_shownRate c.bytesPerSecond) attrs.rate
    constructor
    · rintro ⟨h, hburst⟩
      exact ⟨hburst.symm, h₁.1 h⟩
    · rintro ⟨hburst, h⟩
      exact ⟨h₁.2 h, hburst.symm⟩
  | blackhole c =>
    cases hbase
    cases hkind
    have hclose : ∀ after ∈ c.closeAfter, after ≤ maxStreamFaultDuration := fun after hafter =>
      hdurations after (Option.mem_toList.2 hafter)
    exact closeAfter_kept hclose attrs.timeout
  | limitData c =>
    cases hbase
    cases hkind
    exact (takes_iff atLeastOne 1 (iff_of_true (atLeastOne_toUInt64 c.bytes) trivial) attrs.bytes).trans (by simp [FaultKind.Kept])
  | slowClose c =>
    cases hbase
    cases hkind
    have hdelay : c.delay ≤ maxStreamFaultDuration := hdurations _ (by simp [FaultKind.durations])
    exact takes_iff fromMillis 0 (fromMillis_asMillis hdelay) attrs.delay
  | slice c =>
    cases hbase
    cases hkind
    have hdelay : c.delay ≤ maxStreamFaultDuration := hdurations _ (by simp [FaultKind.durations])
    have hvariation : (UInt64.ofNat c.variation).toNat = c.variation := by
      have hle := FaultSpec.validate_variation hvalid rfl
      have hmax : u64Max < UInt64.size := by decide
      exact UInt64.toNat_ofNat_of_lt' (Nat.lt_of_le_of_lt hle hmax)
    have h₁ := takes_iff atLeastOne 1 (iff_of_true (atLeastOne_toUInt64 c.averageSize) trivial) attrs.averageSize
    have h₂ := takes_iff UInt64.toNat 0 (iff_of_true hvariation trivial) attrs.sizeVariation
    have h₃ := takes_iff fromMicros 0 (fromMicros_asMicros hdelay) attrs.delay
    constructor
    · rintro ⟨-, -, h⟩
      exact h₃.1 h
    · intro h
      exact ⟨h₁.2 fun _ => trivial, h₂.2 fun _ => trivial, h₃.2 h⟩
  | disconnect c =>
    cases hbase
    cases hkind
    have hafter : c.after ≤ maxStreamFaultDuration := hdurations _ (by simp [FaultKind.durations])
    have h₁ := takes_iff fromMillis 0 (fromMillis_asMillis hafter) attrs.timeout
    constructor
    · rintro ⟨h, hreset⟩
      exact ⟨hreset.symm, h₁.1 h⟩
    · rintro ⟨hreset, h⟩
      exact ⟨h₁.2 h, hreset.symm⟩
  | streamLoss c =>
    obtain ⟨haccepts, rfl, rfl⟩ := attrsFromKind_streamLoss hbase
    rcases kindFromAttrs_cases hkind with ⟨h, -⟩ | ⟨h, -⟩ | ⟨h, -⟩ | ⟨h, -⟩ | ⟨h, -⟩ | ⟨h, -⟩ | ⟨h, -⟩ |
      ⟨-, -, lossRate, correlation, hloss, hcorrelation, rfl⟩
    all_goals first | exact absurd h (by decide) | skip
    exact iff_of_true ⟨takes_probability hloss, takes_probability hcorrelation⟩ trivial

/-! ## An update call -/

theorem mergeAttributes_none {kind : FaultKind} {profile : CompatProfile} {name : String} {base : ToxicAttributes}
    (h : attrsFromKind kind profile = .ok (name, base)) : mergeAttributes name base {} = base := by
  cases kind with
  | streamLoss c =>
    obtain ⟨-, rfl, rfl⟩ := attrsFromKind_streamLoss h
    rfl
  | _ =>
    cases h
    rfl

theorem checkProbability_ok {value : Option ℚ} {p : Probability} (h : checkProbability value = .ok p) :
    some p.get = value := by
  unfold checkProbability at h
  split at h
  · cases h
  · split at h
    · cases h
      rfl
    · cases h

theorem checkProbability_error {value : Option ℚ} {e : ControlError} (h : checkProbability value = .error e) :
    ∃ message, e = .invalid message := by
  unfold checkProbability at h
  split at h
  · cases h
    exact ⟨_, rfl⟩
  · split at h
    · cases h
    · cases h
      exact ⟨_, rfl⟩

theorem clampToxicity_ok {toxicity clamped : F64} (h : clampToxicity toxicity = .ok clamped) :
    clamped = toxicity.clampUnit := by
  unfold clampToxicity at h
  split at h
  · cases h
    rfl
  · cases h

/-- What an update sends to the native write. -/
theorem ToxicUpdate.revise_ok {patch : ToxicUpdate} {existing : FaultSpec} {profile : CompatProfile} {change : FaultPatch}
    (h : patch.revise existing profile = .ok change) :
    ∃ name base kind probability, attrsFromKind existing.kind profile = .ok (name, base) ∧
      kindFromAttrs name (mergeAttributes name base patch.named) profile = .ok kind ∧
      Takes patch.toxicity (fun toxicity => toxicity.clampUnit.toBinary64) (some existing.probability.get) probability ∧
      change = { probability := some probability, kind := some kind } := by
  obtain ⟨⟨name, base⟩, hbase, h⟩ := except_bind_ok h
  obtain ⟨kind, hkind, h⟩ := except_bind_ok h
  obtain ⟨probability, hprobability, h⟩ := except_bind_ok h
  cases h
  refine ⟨name, base, kind, probability, hbase, ?_, ?_, rfl⟩
  · unfold ToxicUpdate.named
    cases hattributes : patch.attributes with
    | none =>
      rw [hattributes] at hkind
      rw [Option.getD_none, mergeAttributes_none hbase]
      exact hkind
    | some attrs =>
      rw [hattributes] at hkind
      exact hkind
  · cases htoxicity : patch.toxicity with
    | none =>
      rw [htoxicity] at hprobability
      cases hprobability
      rfl
    | some toxicity =>
      rw [htoxicity] at hprobability
      cases hclamped : clampToxicity toxicity with
      | error e =>
        simp only [hclamped] at hprobability
        cases hprobability
      | ok clamped =>
        simp only [hclamped, clampToxicity_ok hclamped] at hprobability
        cases hprobability
        rfl

/-- One fault is replaced by another in its place; the other policy stays. -/
def ProxySpec.Replaces (spec : ProxySpec) (direction : Direction) (id : String) (after : FaultSpec)
    (spec' : ProxySpec) : Prop :=
  spec.Edits direction ((spec.policy direction).snapshot.plan.faults.set
    ((spec.policy direction).snapshot.plan.faults.findIdx (·.id.value = id)) after) spec'

namespace ProxySpec

variable {spec spec' : ProxySpec} {direction : Direction} {id : String} {existing after after' : FaultSpec}

theorem getFault_valid (h : spec.getFault id = some (direction, existing)) : existing.validate = .ok () :=
  FaultPlan.validate_faults (spec.policy direction).snapshot.valid existing (List.mem_of_find?_eq_some (spec.getFault_get h))

/-- The fault that has come in is the one at its place. -/
theorem Replaces.unique (hget : (spec.policy direction).snapshot.plan.get id = some existing)
    (h : spec.Replaces direction id after spec') (h' : spec.Replaces direction id after' spec') : after = after' := by
  rw [FaultPlan.get, List.find?_eq_getElem?_findIdx] at hget
  obtain ⟨hlt, -⟩ := List.getElem?_eq_some_iff.1 hget
  have heq := congrArg (fun faults =>
    faults[(spec.policy direction).snapshot.plan.faults.findIdx (·.id.value = id)]?) (h.plan.symm.trans h'.plan)
  simpa [List.getElem?_set, hlt] using heq

end ProxySpec

namespace ToxicTask

variable {spec : ProxySpec} {id : String} {direction : Direction} {existing : FaultSpec}

/-- An update alone is refused and changes nothing, or makes what it has read into
what its attributes, laid over those of the fault, translate to. -/
theorem update_alone_cases (profile : CompatProfile) (name : String) (patch : ToxicUpdate)
    (hfault : spec.getFault id = some (direction, existing)) :
    (∃ e, (ToxicOp.update id patch).alone profile name (some spec) = (some spec, done (.error e))) ∨
      ∃ kindName base after spec' object, attrsFromKind existing.kind profile = .ok (kindName, base) ∧
        kindFromAttrs kindName (mergeAttributes kindName base patch.named) profile = .ok after.kind ∧
        after.id = existing.id ∧
        Takes patch.toxicity (fun toxicity => toxicity.clampUnit.toBinary64) (some existing.probability.get)
          (some after.probability.get) ∧
        spec.Replaces direction id after spec' ∧
        (ToxicOp.update id patch).alone profile name (some spec) = (some spec', done (.ok (.toxic object))) := by
  have hread : NativeProxy.getFault (some spec) id = some (direction, existing) := hfault
  cases hrevise : patch.revise existing profile with
  | error e =>
    have hfirst : (reading id patch).proceed profile name (some spec) = (some spec, done (.error e)) := by
      simp only [proceed, hread, hrevise]
    exact .inl ⟨e, alone_sections hfirst rfl rfl⟩
  | ok change =>
    obtain ⟨kindName, base, kind, probability, hbase, hkind, hprobability, rfl⟩ := ToxicUpdate.revise_ok hrevise
    cases hcheck : checkProbability probability with
    | error e =>
      obtain ⟨message, rfl⟩ := checkProbability_error hcheck
      have hfirst : (reading id patch).proceed profile name (some spec) = (some spec, done (.error ⟨400, message⟩)) := by
        simp only [proceed, hread, hrevise, Option.map_some, hcheck]
      exact .inl ⟨_, alone_sections hfirst rfl rfl⟩
    | ok p =>
      have hfirst : (reading id patch).proceed profile name (some spec) =
          (some spec, updating id patch { probability := some probability, kind := some kind }) := by
        simp only [proceed, hread, hrevise, Option.map_some, hcheck]
      rcases spec.updateFault_cases id { probability := some probability, kind := some kind } with
        ⟨e, herror⟩ | ⟨direction', found, after, plans, spec', hfound, hpatch, hwritten, hedits⟩
      · have hsecond :
            (updating id patch { probability := some probability, kind := some kind }).proceed profile name (some spec) =
            (some spec, done (updatedToxic profile (.error e))) := by
          simp only [proceed_updating, NativeProxy.updateFault, herror, Except.bind]
        have hrefused : ∃ refusal, updatedToxic profile (.error e) = .error refusal := by
          cases e <;> exact ⟨_, rfl⟩
        obtain ⟨refusal, hrefusal⟩ := hrefused
        rw [hrefusal] at hsecond
        exact .inl ⟨refusal, alone_sections hfirst hsecond rfl⟩
      · rw [hfault] at hfound
        cases hfound
        have hafter : after = ⟨existing.id, p, kind⟩ := by
          simp only [ProxySpec.patchFault, hcheck, Option.getD_some] at hpatch
          cases hpatch
          rfl
        obtain ⟨object, hobject⟩ := faultToToxic_of_kindFromAttrs direction after (by rw [hafter]; exact hkind)
        have hsecond :
            (updating id patch { probability := some probability, kind := some kind }).proceed profile name (some spec) =
            (some spec', done (.ok (.toxic object))) := by
          rw [proceed_updating, NativeProxy.updateFault, hwritten]
          simp only [hfault, hpatch, Except.bind, Except.map, updatedToxic, hobject]
          rfl
        refine .inr ⟨kindName, base, after, spec', object, hbase, ?_, ?_, ?_, hedits, alone_sections hfirst hsecond rfl⟩
        · rw [hafter]
          exact hkind
        · rw [hafter]
        · rw [hafter, checkProbability_ok hcheck]
          exact hprobability

end ToxicTask

/-- An update that is refused changes nothing. One that goes through replaces the
fault by what it is for, exactly when the translation keeps the fault. -/
theorem update_keeps_iff (profile : CompatProfile) (name : String) (spec : ProxySpec) (id : String) (patch : ToxicUpdate)
    (direction : Direction) (existing : FaultSpec) (hfault : spec.getFault id = some (direction, existing)) :
    (((ToxicOp.update id patch).alone profile name (some spec)).2.succeeded = false →
        ((ToxicOp.update id patch).alone profile name (some spec)).1 = some spec) ∧
      (((ToxicOp.update id patch).alone profile name (some spec)).2.succeeded = true →
        ((∃ after spec', ((ToxicOp.update id patch).alone profile name (some spec)).1 = some spec' ∧
            spec.Replaces direction id after spec' ∧ patch.Patches existing after) ↔
          existing.kind.Kept patch.named)) := by
  rcases ToxicTask.update_alone_cases profile name patch hfault with
    ⟨e, halone⟩ | ⟨kindName, base, after, spec', object, hbase, hkind, hid, hprobability, hreplaces, halone⟩
  · rw [halone]
    exact ⟨fun _ => rfl, fun h => absurd h Bool.false_ne_true⟩
  · have hpatched := patched_iff (ProxySpec.getFault_valid hfault) hbase hkind
    rw [halone]
    refine ⟨fun h => absurd h.symm Bool.false_ne_true, fun _ => ?_⟩
    constructor
    · rintro ⟨after', spec'', heq, hreplaces', hpatches⟩
      cases heq
      rw [hreplaces'.unique (spec.getFault_get hfault) hreplaces] at hpatches
      exact hpatched.1 hpatches.kind
    · intro hkept
      exact ⟨after, spec', rfl, hreplaces, hid, hpatched.2 hkept, hprobability⟩

/-- A latency toxic of 100 milliseconds. -/
def toxicLatency : ProxySpec := (plainSpec.addFault ⟨.upstream, "lag", some 1, .latency ⟨100000000, 0, toxicBuffer⟩⟩).2

theorem update_keeps_iff_toxic : ∃ direction existing after spec',
    toxicLatency.getFault "lag" = some (direction, existing) ∧
      ((ToxicOp.update "lag" ToxicControl.setJitter).alone .strictV2_12 "p" (some toxicLatency)).1 = some spec' ∧
      toxicLatency.Replaces direction "lag" after spec' ∧ ToxicControl.setJitter.Patches existing after := by
  have hsome : (toxicLatency.getFault "lag").isSome = true := by decide
  obtain ⟨⟨direction, existing⟩, hfault⟩ := Option.isSome_iff_exists.1 hsome
  have hkind : existing.kind = .latency ⟨100000000, 0, toxicBuffer⟩ := by
    have hread : (toxicLatency.getFault "lag").map (·.2.kind) = some (.latency ⟨100000000, 0, toxicBuffer⟩) := by
      decide
    rw [hfault] at hread
    exact Option.some.inj hread
  have hkept : existing.kind.Kept ToxicControl.setJitter.named := by
    rw [hkind]
    exact ⟨rfl, fun _ => by decide, fun _ => by decide⟩
  obtain ⟨after, spec', hdone⟩ :=
    ((update_keeps_iff .strictV2_12 "p" toxicLatency "lag" ToxicControl.setJitter direction existing hfault).2 (by decide)).2 hkept
  exact ⟨direction, existing, after, spec', hfault, hdone⟩

/-- A latency that came in by the native interface: a millisecond and a half, and a
buffer of 4 KiB. -/
def nativeLatency : ProxySpec :=
  (plainSpec.addFault ⟨.upstream, "lag", some 1, .latency ⟨1500000, 0, kibibytes (atLeastOne 4)⟩⟩).2

/-- An update that only names the rate of a bandwidth toxic. -/
def foreignRate : ToxicUpdate := ⟨none, some { rate := some 99 }⟩

/-- A latency whose update names nothing of it loses half a millisecond, and gets
the buffer of a toxic. -/
theorem foreign_update_rewrites :
    (nativeLatency.getFault "lag").map (·.2.kind) = some (.latency ⟨1500000, 0, kibibytes (atLeastOne 4)⟩) ∧
      ((ToxicOp.update "lag" foreignRate).alone .strictV2_12 "p" (some nativeLatency)).2.succeeded = true ∧
      (((ToxicOp.update "lag" foreignRate).alone .strictV2_12 "p" (some nativeLatency)).1.bind (·.getFault "lag")).map (·.2.kind) =
        some (.latency ⟨1000000, 0, toxicBuffer⟩) ∧
      kibibytes (atLeastOne 4) ≠ toxicBuffer := by
  refine ⟨by decide, by decide, by decide, by decide⟩

end Eggchaos
