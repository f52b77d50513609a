import Eggchaos.Wire
/-!
# Schedules on the wire

The schedule documents of `scenario_v2.rs`: an explicit wire type for every
part of a schedule, the conversion to it, the checked conversion back, and the
two ends that serialise it. The JSON library is a parameter. A schedule the
compiler accepts comes back as it was exactly when no stream plan in it holds a
latency the wire refuses (`vocabularies_inverse`).
-/

namespace Eggchaos
open Lib

structure ScenarioFaultV1 where
  id : String
  probability : Binary64
  kind : FaultKindV1
deriving DecidableEq, Repr

structure DatagramFaultSpecV1 where
  id : String
  probability : Binary64
  kind : DatagramFaultKindV1
deriving DecidableEq, Repr

inductive ScenarioActionDto where
  | setPlan (proxy : String) (direction : Direction) (faults : List ScenarioFaultV1)
  | removeFault (proxy : String) (direction : Direction) (id : String)
  | setDatagramPlan (proxy : String) (direction : Direction) (faults : List DatagramFaultSpecV1)
  | removeDatagramFault (proxy : String) (direction : Direction) (id : String)
deriving DecidableEq, Repr

structure ScenarioPhaseV2Dto where
  name : Option String
  durationNs : Nat
  actions : List ScenarioActionDto
deriving DecidableEq, Repr

structure ScenarioRepeatV2Dto where
  count : Nat
  phases : List ScenarioPhaseV2Dto
deriving DecidableEq, Repr

structure ScenarioScheduleV2Dto where
  version : Nat
  seed : UInt64
  executionKey : UInt64
  isolation : IsolationPolicyV2
  cleanup : CleanupPolicyV2
  phases : List ScenarioPhaseV2Dto
  repeatBlock : Option ScenarioRepeatV2Dto
deriving DecidableEq, Repr

/-! ## To the wire -/

def ScenarioFaultV1.ofSpec (fault : FaultSpec) : ScenarioFaultV1 where
  id := fault.id.value
  probability := fault.probability.toBinary64
  kind := .fromCore fault.kind

def DatagramFaultSpecV1.ofSpec (fault : DatagramFaultSpec) : DatagramFaultSpecV1 where
  id := fault.id.value
  probability := fault.probability.toBinary64
  kind := .fromCore fault.kind

def ScenarioActionDto.ofAction : ScenarioAction → ScenarioActionDto
  | .setPlan proxy direction faults => setPlan proxy direction (faults.map .ofSpec)
  | .removeFault proxy direction id => removeFault proxy direction id
  | .setDatagramPlan proxy direction faults => setDatagramPlan proxy direction (faults.map .ofSpec)
  | .removeDatagramFault proxy direction id => removeDatagramFault proxy direction id

def ScenarioPhaseV2Dto.ofPhase (phase : SchedulePhaseV2) : ScenarioPhaseV2Dto where
  name := phase.name
  durationNs := phase.durationNs
  actions := phase.actions.map .ofAction

def ScenarioRepeatV2Dto.ofRepeat (block : ScheduleRepeatV2) : ScenarioRepeatV2Dto where
  count := block.count
  phases := block.phases.map .ofPhase

def ScenarioScheduleV2Dto.ofSchedule (source : ScenarioScheduleV2) : ScenarioScheduleV2Dto where
  version := source.version
  seed := source.seed
  executionKey := source.executionKey
  isolation := source.isolation
  cleanup := source.cleanup
  phases := source.phases.map .ofPhase
  repeatBlock := source.repeatBlock.map .ofRepeat

/-! ## And back -/

/-- `ScenarioFaultV1::into_core`, which the loop of `into_internal` repeats. -/
def ScenarioFaultV1.intoCore (fault : ScenarioFaultV1) : Except String FaultSpec := do
  let id ← (FaultId.new fault.id).mapError ValidationError.message
  let probability ← (Probability.new fault.probability).mapError ValidationError.message
  let kind ← fault.kind.intoCore
  return ⟨id, probability, kind⟩

/-- `DatagramFaultSpecV1::into_core`, which checks the fault as a plan of one. -/
def DatagramFaultSpecV1.intoCore (fault : DatagramFaultSpecV1) : Except String DatagramFaultSpec := do
  let id ← (FaultId.new fault.id).mapError ValidationError.message
  let probability ← (Probability.new fault.probability).mapError ValidationError.message
  let kind ← fault.kind.intoCore
  let _ ← DatagramPlan.new [⟨id, probability, kind⟩]
  return ⟨id, probability, kind⟩

/-- `ScenarioActionDto::into_internal`. -/
def ScenarioActionDto.intoInternal : ScenarioActionDto → Except String ScenarioAction
  | setPlan proxy direction faults => do
    let converted ← faults.mapM ScenarioFaultV1.intoCore
    let _ ← (FaultPlan.new converted).mapError ValidationError.message
    return .setPlan proxy direction converted
  | removeFault proxy direction id => do
    let _ ← (FaultId.new id).mapError ValidationError.message
    return .removeFault proxy direction id
  | setDatagramPlan proxy direction faults => do
    let converted ← faults.mapM DatagramFaultSpecV1.intoCore
    let _ ← DatagramPlan.new converted
    return .setDatagramPlan proxy direction converted
  | removeDatagramFault proxy direction id => do
    let _ ← (FaultId.new id).mapError ValidationError.message
    return .removeDatagramFault proxy direction id

/-- `ScenarioPhaseV2Dto::into_internal`. -/
def ScenarioPhaseV2Dto.intoInternal (phase : ScenarioPhaseV2Dto) : Except String SchedulePhaseV2 := do
  let actions ← phase.actions.mapM ScenarioActionDto.intoInternal
  return ⟨phase.name, phase.durationNs, actions⟩

/-- `ScenarioRepeatV2Dto::into_internal`. -/
def ScenarioRepeatV2Dto.intoInternal (block : ScenarioRepeatV2Dto) : Except String ScheduleRepeatV2 := do
  let phases ← block.phases.mapM ScenarioPhaseV2Dto.intoInternal
  return ⟨block.count, phases⟩

/-- The repeat block of a schedule, where it has one. -/
def ScenarioRepeatV2Dto.intoInternal? : Option ScenarioRepeatV2Dto → Except String (Option ScheduleRepeatV2)
  | none => return none
  | some block => do
    let block ← block.intoInternal
    return some block

/-- `ScenarioScheduleV2Dto::into_internal`. -/
def ScenarioScheduleV2Dto.intoInternal (dto : ScenarioScheduleV2Dto) : Except String ScenarioScheduleV2 := do
  if dto.version ≠ scheduleSchemaVersion then throw ("unsupported schedule version: " ++ toString dto.version)
  let phases ← dto.phases.mapM ScenarioPhaseV2Dto.intoInternal
  let repeatBlock ← ScenarioRepeatV2Dto.intoInternal? dto.repeatBlock
  return {
    version := dto.version
    seed := dto.seed
    executionKey := dto.executionKey
    isolation := dto.isolation
    cleanup := dto.cleanup
    phases
    repeatBlock }

/-- The JSON library at the schedule document: `to_string` and `from_str`, with
the texts of their errors. -/
structure ScheduleJson where
  toText : ScenarioScheduleV2Dto → Except String String
  fromText : String → Except String ScenarioScheduleV2Dto

/-- The library reads a document back from the text it writes for it. -/
def ScheduleJson.RoundTrips (json : ScheduleJson) (dto : ScenarioScheduleV2Dto) : Prop :=
  ∃ text, json.toText dto = .ok text ∧ json.fromText text = .ok dto

/-- `to_canonical_json`. -/
def toCanonicalJson (json : ScheduleJson) (source : ScenarioScheduleV2) : Except String String :=
  json.toText (.ofSchedule source)

/-- `ScenarioScheduleV2Dto::from_json_str`. -/
def fromJsonStr (json : ScheduleJson) (input : String) : Except String ScenarioScheduleV2 := do
  let dto ← json.fromText input
  dto.intoInternal

/-! ## What the compiler has checked -/

theorem forM_ok {ε α : Type} {f : α → Except ε Unit} {l : List α} (h : l.forM f = .ok ()) : ∀ a ∈ l, f a = .ok () := by
  induction l with
  | nil => simp
  | cons a l ih =>
    obtain ⟨_, ha, hl⟩ := except_bind_ok (h : (f a >>= fun _ => l.forM f) = .ok ())
    intro b hb
    rcases List.mem_cons.1 hb with rfl | hb
    · exact ha
    · exact ih hl b hb

theorem expandPhases_checked {identity : Nat → CompiledPhaseIdentity}
    {check : SchedulePhaseV2 → Except ScheduleError Unit} {k : Nat} {phases : List SchedulePhaseV2} {cursor : Cursor}
    {tape : List CompiledEventV2 × Cursor} (h : expandPhases identity check k phases cursor = .ok tape) :
    ∀ phase ∈ phases, check phase = .ok () := by
  induction phases generalizing k cursor tape with
  | nil => simp
  | cons phase phases ih =>
    unfold expandPhases at h
    obtain ⟨_, hcheck, h⟩ := except_bind_ok h
    obtain ⟨_, -, h⟩ := except_bind_ok h
    obtain ⟨_, hrest, -⟩ := except_bind_ok h
    intro other hother
    rcases List.mem_cons.1 hother with rfl | hother
    · exact hcheck
    · exact ih hrest other hother

theorem validatePhaseActions_ok {phase : SchedulePhaseV2} (h : validatePhaseActions phase = .ok ()) :
    ∀ action ∈ phase.actions, action.validate = .ok () := by
  unfold validatePhaseActions at h
  split at h
  · cases h
  · exact forM_ok h

theorem ScenarioScheduleV2.checkStructure_version {source : ScenarioScheduleV2} (h : source.checkStructure = .ok ()) :
    source.version = scheduleSchemaVersion := by
  unfold checkStructure at h
  by_contra hversion
  rw [if_pos hversion] at h
  cases h

/-- The phases of a schedule as written, those of the repeat block once. -/
def ScenarioScheduleV2.writtenPhases (source : ScenarioScheduleV2) : List SchedulePhaseV2 :=
  source.phases ++ match source.repeatBlock with
    | some block => block.phases
    | none => []

/-- An accepted schedule has the supported version and only valid actions. -/
theorem compileSchedule_valid {source : ScenarioScheduleV2} {compiled : CompiledScenarioV2}
    (h : compileSchedule source = .ok compiled) :
    source.version = scheduleSchemaVersion ∧
      ∀ phase ∈ source.writtenPhases, ∀ action ∈ phase.actions, action.validate = .ok () := by
  unfold compileSchedule at h
  obtain ⟨_, hstructure, h⟩ := except_bind_ok h
  refine ⟨ScenarioScheduleV2.checkStructure_version hstructure, ?_⟩
  simp only at h
  split at h
  · cases h
  · obtain ⟨⟨top, cursor⟩, htop, h⟩ := except_bind_ok h
    have hphases := expandPhases_checked htop
    intro phase hphase
    rcases List.mem_append.1 hphase with hphase | hphase
    · exact validatePhaseActions_ok (hphases phase hphase)
    · cases hblock : source.repeatBlock with
      | none =>
        rw [hblock] at hphase
        exact absurd hphase List.not_mem_nil
      | some block =>
        rw [hblock] at hphase h
        simp only at h
        split at h
        · cases h
        · split at h
          · cases h
          · obtain ⟨_, hblocks, -⟩ := except_bind_ok h
            exact validatePhaseActions_ok (forM_ok hblocks phase hphase)

/-! ## The round trip -/

theorem DatagramPlan.validateFrom_ok {ids : List FaultId} {maximum : Nat} {faults : List DatagramFaultSpec}
    (h : validateFrom ids maximum faults = .ok ()) :
    ∀ fault ∈ faults, ∃ before after, checkKind before fault.kind = .ok after := by
  induction faults generalizing ids maximum with
  | nil => simp
  | cons fault faults ih =>
    unfold validateFrom at h
    split at h
    · cases h
    · split at h
      · cases h
      · next hfault =>
        intro other hother
        rcases List.mem_cons.1 hother with rfl | hother
        · exact ⟨_, _, hfault⟩
        · exact ih h other hother

theorem DatagramPlan.validate_of_new {faults : List DatagramFaultSpec} {plan : DatagramPlan}
    (h : DatagramPlan.new faults = .ok plan) : DatagramPlan.validate ⟨faults⟩ = .ok () := by
  unfold new at h
  split at h
  · cases h
  · assumption

theorem DatagramPlan.validate_faults {plan : DatagramPlan} (h : plan.validate = .ok ()) :
    ∀ fault ∈ plan.faults, ∃ before after, checkKind before fault.kind = .ok after := by
  unfold validate at h
  split at h
  · cases h
  · exact validateFrom_ok h

/-- Every fault of a validated datagram plan survives the wire. -/
theorem DatagramFaultKindV1.intoCore_fromCore_of_plan {plan : DatagramPlan} (h : plan.validate = .ok ())
    {fault : DatagramFaultSpec} (hfault : fault ∈ plan.faults) :
    (fromCore fault.kind).intoCore = .ok fault.kind := by
  obtain ⟨before, after, hkind⟩ := DatagramPlan.validate_faults h fault hfault
  exact intoCore_fromCore hkind

theorem ScenarioFaultV1.intoCore_ofSpec (fault : FaultSpec) :
    (ofSpec fault).intoCore = .ok fault ↔ (FaultKindV1.fromCore fault.kind).intoCore = .ok fault.kind := by
  obtain ⟨id, probability, kind⟩ := fault
  have heq : (ofSpec ⟨id, probability, kind⟩).intoCore =
      (FaultKindV1.fromCore kind).intoCore >>= fun kind => .ok ⟨id, probability, kind⟩ := by
    simp only [intoCore, ofSpec, FaultId.new_value, Probability.new_toBinary64]
    rfl
  rw [heq]
  constructor
  · intro h
    obtain ⟨kind', hkind, h⟩ := except_bind_ok h
    cases h
    exact hkind
  · intro h
    rw [h]
    rfl

/-- A fault of a validated plan passes the check as a plan of one. -/
theorem DatagramFaultSpecV1.intoCore_ofSpec {plan : DatagramPlan} (h : plan.validate = .ok ())
    {fault : DatagramFaultSpec} (hfault : fault ∈ plan.faults) : (ofSpec fault).intoCore = .ok fault := by
  have hkind := DatagramFaultKindV1.intoCore_fromCore_of_plan h hfault
  have hsingle := DatagramPlan.new_of_valid (DatagramPlan.validate_sublist (List.singleton_sublist.2 hfault) h)
  obtain ⟨id, probability, kind⟩ := fault
  simp only [intoCore, ofSpec, FaultId.new_value, Probability.new_toBinary64]
  show (DatagramFaultKindV1.fromCore kind).intoCore >>= _ = _
  rw [hkind]
  show DatagramPlan.new [⟨id, probability, kind⟩] >>= _ = _
  rw [hsingle]
  rfl

/-- The stream faults an action publishes. -/
def ScenarioAction.streamFaults : ScenarioAction → List FaultSpec
  | .setPlan _ _ faults => faults
  | .removeFault _ _ _ | .setDatagramPlan _ _ _ | .removeDatagramFault _ _ _ => []

/-- None of the action's stream faults is one the wire refuses. -/
def ScenarioAction.FitsWire (action : ScenarioAction) : Prop :=
  ∀ fault ∈ action.streamFaults, ¬ fault.kind.Oversized

theorem ScenarioActionDto.intoInternal_ofAction {action : ScenarioAction} (h : action.validate = .ok ()) :
    (ofAction action).intoInternal = .ok action ↔ action.FitsWire := by
  cases action with
  | setPlan proxy direction faults =>
    have hplan : FaultPlan.validate ⟨faults⟩ = .ok () := by
      simp only [ScenarioAction.validate] at h
      split at h
      · cases h
      · next plan hnew =>
        obtain ⟨rfl, hok⟩ := FaultPlan.new_eq_ok_iff.1 hnew
        exact hok
    have hnew : FaultPlan.new faults = .ok ⟨faults⟩ := FaultPlan.new_eq_ok_iff.2 ⟨rfl, hplan⟩
    have hvalid := FaultPlan.validate_faults hplan
    have hfits : (setPlan proxy direction (faults.map .ofSpec)).intoInternal = .ok (.setPlan proxy direction faults) ↔
        (faults.map ScenarioFaultV1.ofSpec).mapM ScenarioFaultV1.intoCore = .ok faults := by
      rw [intoInternal]
      constructor
      · intro h
        obtain ⟨converted, hconverted, h⟩ := except_bind_ok h
        obtain ⟨_, -, h⟩ := except_bind_ok h
        cases h
        exact hconverted
      · intro h
        rw [h]
        show (FaultPlan.new faults).mapError ValidationError.message >>= _ = _
        rw [hnew]
        rfl
    rw [ofAction, hfits, mapM_map_ok]
    apply forall₂_congr
    intro fault hfault
    rw [ScenarioFaultV1.intoCore_ofSpec, FaultKindV1.intoCore_fromCore_iff (hvalid fault hfault)]
  | removeFault proxy direction id =>
    refine iff_of_true ?_ (fun _ hfault => absurd hfault List.not_mem_nil)
    simp only [ScenarioAction.validate] at h
    split at h
    · cases h
    · next value hid =>
      rw [ofAction, intoInternal, hid]
      rfl
  | setDatagramPlan proxy direction faults =>
    refine iff_of_true ?_ (fun _ hfault => absurd hfault List.not_mem_nil)
    have hplan : DatagramPlan.validate ⟨faults⟩ = .ok () := by
      simp only [ScenarioAction.validate] at h
      split at h
      · cases h
      · next plan hnew => exact DatagramPlan.validate_of_new hnew
    have hnew := DatagramPlan.new_of_valid hplan
    have hback : (faults.map DatagramFaultSpecV1.ofSpec).mapM DatagramFaultSpecV1.intoCore = .ok faults := by
      rw [mapM_map_ok]
      intro fault hfault
      exact DatagramFaultSpecV1.intoCore_ofSpec hplan hfault
    rw [ofAction, intoInternal, hback]
    show DatagramPlan.new faults >>= _ = _
    rw [hnew]
    rfl
  | removeDatagramFault proxy direction id =>
    refine iff_of_true ?_ (fun _ hfault => absurd hfault List.not_mem_nil)
    simp only [ScenarioAction.validate] at h
    split at h
    · cases h
    · next value hid =>
      rw [ofAction, intoInternal, hid]
      rfl

/-- All actions of a phase are valid. -/
def SchedulePhaseV2.Valid (phase : SchedulePhaseV2) : Prop := ∀ action ∈ phase.actions, action.validate = .ok ()

/-- No action of the phase holds a fault the wire refuses. -/
def SchedulePhaseV2.FitsWire (phase : SchedulePhaseV2) : Prop := ∀ action ∈ phase.actions, action.FitsWire

theorem ScenarioPhaseV2Dto.intoInternal_ofPhase {phase : SchedulePhaseV2} (h : phase.Valid) :
    (ofPhase phase).intoInternal = .ok phase ↔ phase.FitsWire := by
  have hactions : (ofPhase phase).intoInternal = .ok phase ↔
      (phase.actions.map ScenarioActionDto.ofAction).mapM ScenarioActionDto.intoInternal = .ok phase.actions := by
    rw [intoInternal, ofPhase]
    constructor
    · intro h
      obtain ⟨actions, hactions, h⟩ := except_bind_ok h
      have heq : actions = phase.actions := congrArg SchedulePhaseV2.actions (Except.ok.inj h)
      rwa [heq] at hactions
    · intro h
      rw [h]
      rfl
  rw [hactions, mapM_map_ok]
  apply forall₂_congr
  intro action haction
  exact ScenarioActionDto.intoInternal_ofAction (h action haction)

theorem ScenarioPhaseV2Dto.intoInternal_ofPhases {phases : List SchedulePhaseV2} (h : ∀ phase ∈ phases, phase.Valid) :
    (phases.map ofPhase).mapM intoInternal = .ok phases ↔ ∀ phase ∈ phases, phase.FitsWire := by
  rw [mapM_map_ok]
  apply forall₂_congr
  intro phase hphase
  exact intoInternal_ofPhase (h phase hphase)

theorem ScenarioRepeatV2Dto.intoInternal_ofRepeat {block : ScheduleRepeatV2}
    (h : ∀ phase ∈ block.phases, phase.Valid) :
    intoInternal? (some (ofRepeat block)) = .ok (some block) ↔ ∀ phase ∈ block.phases, phase.FitsWire := by
  rw [← ScenarioPhaseV2Dto.intoInternal_ofPhases h, intoInternal?, intoInternal, ofRepeat]
  constructor
  · intro h
    obtain ⟨block', hblock, h⟩ := except_bind_ok h
    cases h
    obtain ⟨phases, hphases, hblock⟩ := except_bind_ok hblock
    have heq : phases = block.phases := congrArg ScheduleRepeatV2.phases (Except.ok.inj hblock)
    rwa [heq] at hphases
  · intro h
    rw [h]
    rfl

/-- A schedule of the supported version with valid actions comes back from its
wire document exactly when none of its phases holds a fault the wire refuses. -/
theorem ScenarioScheduleV2Dto.intoInternal_ofSchedule {source : ScenarioScheduleV2}
    (hversion : source.version = scheduleSchemaVersion) (h : ∀ phase ∈ source.writtenPhases, phase.Valid) :
    (ofSchedule source).intoInternal = .ok source ↔ ∀ phase ∈ source.writtenPhases, phase.FitsWire := by
  have hphases := ScenarioPhaseV2Dto.intoInternal_ofPhases fun phase hphase => h phase (List.mem_append_left _ hphase)
  have hparts : (ofSchedule source).intoInternal = .ok source ↔
      (source.phases.map ScenarioPhaseV2Dto.ofPhase).mapM ScenarioPhaseV2Dto.intoInternal = .ok source.phases ∧
        ScenarioRepeatV2Dto.intoInternal? (source.repeatBlock.map .ofRepeat) = .ok source.repeatBlock := by
    rw [intoInternal, if_neg (by simp [ofSchedule, hversion])]
    constructor
    · intro h
      obtain ⟨phases, hphases, h⟩ := except_bind_ok h
      obtain ⟨block, hblock, h⟩ := except_bind_ok h
      have hphases' : phases = source.phases := congrArg ScenarioScheduleV2.phases (Except.ok.inj h)
      have hblock' : block = source.repeatBlock := congrArg ScenarioScheduleV2.repeatBlock (Except.ok.inj h)
      rw [hphases'] at hphases
      rw [hblock'] at hblock
      exact ⟨hphases, hblock⟩
    · intro h
      rw [ofSchedule, h.1]
      show ScenarioRepeatV2Dto.intoInternal? (source.repeatBlock.map .ofRepeat) >>= _ = _
      rw [h.2]
      rfl
  rw [hparts, hphases]
  unfold ScenarioScheduleV2.writtenPhases at h ⊢
  cases hblock : source.repeatBlock with
  | none => simp [ScenarioRepeatV2Dto.intoInternal?]; intro _; rfl
  | some block =>
    rw [hblock] at h
    have hback := ScenarioRepeatV2Dto.intoInternal_ofRepeat fun phase hphase => h phase (List.mem_append_right _ hphase)
    rw [Option.map_some, hback, List.forall_mem_append]

/-- The wire and the native fault vocabularies are inverse to each other on
admitted values, up to the one kind the wire refuses; and a schedule the
compiler accepts is read back from its canonical text as it was, exactly when
none of its stream plans holds a fault of that kind. -/
theorem vocabularies_inverse (json : ScheduleJson) :
    (∀ w kind, FaultKindV1.intoCore w = .ok kind → FaultKindV1.fromCore kind = w) ∧
    (∀ w kind, DatagramFaultKindV1.intoCore w = .ok kind → DatagramFaultKindV1.fromCore kind = w) ∧
    (∀ fault : FaultSpec, fault.validate = .ok () →
      ((FaultKindV1.fromCore fault.kind).intoCore = .ok fault.kind ↔ ¬ fault.kind.Oversized)) ∧
    (∀ plan : DatagramPlan, plan.validate = .ok () → ∀ fault ∈ plan.faults,
      (DatagramFaultKindV1.fromCore fault.kind).intoCore = .ok fault.kind) ∧
    (∀ source compiled, compileSchedule source = .ok compiled → json.RoundTrips (.ofSchedule source) →
      (toCanonicalJson json source >>= fromJsonStr json = .ok source ↔
        ∀ phase ∈ source.writtenPhases, phase.FitsWire)) := by
  refine ⟨fun w kind h => FaultKindV1.fromCore_intoCore h, fun w kind h => DatagramFaultKindV1.fromCore_intoCore h,
    fun fault h => FaultKindV1.intoCore_fromCore_iff h,
    fun plan h fault hfault => DatagramFaultKindV1.intoCore_fromCore_of_plan h hfault, ?_⟩
  intro source compiled hcompile hjson
  obtain ⟨text, hto, hfrom⟩ := hjson
  obtain ⟨hversion, hvalid⟩ := compileSchedule_valid hcompile
  have hback : toCanonicalJson json source >>= fromJsonStr json =
      (ScenarioScheduleV2Dto.ofSchedule source).intoInternal := by
    rw [toCanonicalJson, hto]
    show fromJsonStr json text = _
    rw [fromJsonStr, hfrom]
    rfl
  rw [hback]
  exact ScenarioScheduleV2Dto.intoInternal_ofSchedule hversion hvalid

theorem delay_nonempty : "delay" ≠ "" := by decide
theorem delay_short : "delay".utf8ByteSize ≤ 128 := by decide
theorem twins_nonempty : "twins" ≠ "" := by decide
theorem twins_short : "twins".utf8ByteSize ≤ 128 := by decide
theorem oversized_le_u64Max : maxLatencyBufferBytes + 1 ≤ u64Max := by decide

/-- A latency of 5 ms behind a buffer of the given size. -/
def delayed (maxBufferBytes : NonZeroU64) : FaultSpec :=
  ⟨⟨"delay", delay_nonempty, delay_short⟩, .one, .latency ⟨5000000, 0, maxBufferBytes⟩⟩

/-- Every datagram twice more. -/
def twins : DatagramFaultSpec := ⟨⟨"twins", twins_nonempty, twins_short⟩, .one, .duplicate 2⟩

/-- One phase that publishes a plan of each transport. -/
def warmup (maxBufferBytes : NonZeroU64) : ScenarioScheduleV2 where
  version := 2
  seed := 7
  executionKey := 11
  isolation := .strict
  cleanup := .restoreInitial
  phases := [⟨some "warmup", 1000000000,
    [.setPlan "cache" .downstream [delayed maxBufferBytes], .setDatagramPlan "dns" .upstream [twins]]⟩]
  repeatBlock := none

def warmupTape (maxBufferBytes : NonZeroU64) : CompiledScenarioV2 where
  compilerSemanticsVersion := 1
  seed := 7
  executionKey := 11
  isolation := .strict
  cleanup := .restoreInitial
  events := [⟨0, .top 0, 0, .setPlan "cache" .downstream [delayed maxBufferBytes]⟩,
    ⟨1, .top 0, 0, .setDatagramPlan "dns" .upstream [twins]⟩]
  totalDurationNs := 1000000000

def oneByte : NonZeroU64 := ⟨1, Nat.one_pos, one_le_u64Max⟩

/-- The canonical text of the schedule with a buffer of one byte. -/
def warmupText : String :=
  "\x7b\"version\":2,\"seed\":7,\"execution_key\":11,\"isolation\":\"strict\",\"cleanup\":\"restore-initial\"," ++
  "\"phases\":[\x7b\"name\":\"warmup\",\"duration_ns\":1000000000,\"actions\":[" ++
  "\x7b\"type\":\"set-plan\",\"proxy\":\"cache\",\"direction\":\"downstream\",\"faults\":[" ++
  "\x7b\"id\":\"delay\",\"probability\":1.0,\"kind\":" ++
  "\x7b\"type\":\"latency\",\"delay_ns\":5000000,\"jitter_ns\":0,\"max_buffer_bytes\":1\x7d\x7d]\x7d," ++
  "\x7b\"type\":\"set-datagram-plan\",\"proxy\":\"dns\",\"direction\":\"upstream\",\"faults\":[" ++
  "\x7b\"id\":\"twins\",\"probability\":1.0,\"kind\":" ++
  "\x7b\"type\":\"duplicate\",\"additional_copies\":2\x7d\x7d]\x7d]\x7d],\"repeat\":null\x7d"

/-- A library that knows one document. -/
def warmupJson : ScheduleJson where
  toText dto := if dto = .ofSchedule (warmup oneByte) then .ok warmupText else .error "unknown document"
  fromText text := if text = warmupText then .ok (.ofSchedule (warmup oneByte)) else .error "expected value"

theorem warmupJson_roundTrips : warmupJson.RoundTrips (.ofSchedule (warmup oneByte)) := by
  refine ⟨warmupText, ?_, ?_⟩ <;> simp [warmupJson]

theorem warmup_compiles : compileSchedule (warmup oneByte) = .ok (warmupTape oneByte) := by
  decide

theorem warmup_fits : ∀ phase ∈ (warmup oneByte).writtenPhases, phase.FitsWire := by
  intro phase hphase action haction fault hfault
  simp only [ScenarioScheduleV2.writtenPhases, warmup, List.append_nil, List.mem_singleton] at hphase
  subst hphase
  simp only [List.mem_cons, List.not_mem_nil, or_false] at haction
  rcases haction with rfl | rfl
  · simp only [ScenarioAction.streamFaults, List.mem_singleton] at hfault
    subst hfault
    decide
  · exact absurd hfault List.not_mem_nil

theorem vocabularies_inverse_warmup :
    FaultKindV1.fromCore (delayed oneByte).kind = .latency 5000000 0 1 ∧
    DatagramFaultKindV1.fromCore twins.kind = .duplicate 2 ∧
    (FaultKindV1.fromCore (delayed oneByte).kind).intoCore = .ok (delayed oneByte).kind ∧
    (DatagramFaultKindV1.fromCore twins.kind).intoCore = .ok twins.kind ∧
    toCanonicalJson warmupJson (warmup oneByte) >>= fromJsonStr warmupJson = .ok (warmup oneByte) := by
  obtain ⟨hstream, hdatagram, hspec, hplan, hschedule⟩ := vocabularies_inverse warmupJson
  exact ⟨hstream (.latency 5000000 0 1) _ rfl, hdatagram (.duplicate 2) _ rfl,
    (hspec (delayed oneByte) rfl).2 (by decide), hplan ⟨[twins]⟩ rfl twins (List.mem_singleton.2 rfl),
    (hschedule (warmup oneByte) _ warmup_compiles warmupJson_roundTrips).2 warmup_fits⟩

/-- A buffer one byte above the wire's bound: the native plan and the compiler
admit it, and the wire refuses both. -/
theorem large_buffer_refused :
    (delayed ⟨maxLatencyBufferBytes + 1, Nat.succ_pos _, oversized_le_u64Max⟩).validate = .ok () ∧
    (FaultKindV1.fromCore (delayed ⟨maxLatencyBufferBytes + 1, Nat.succ_pos _, oversized_le_u64Max⟩).kind).intoCore =
      .error "max_buffer_bytes must be at most 67108864" ∧
    compileSchedule (warmup ⟨maxLatencyBufferBytes + 1, Nat.succ_pos _, oversized_le_u64Max⟩) =
      .ok (warmupTape ⟨maxLatencyBufferBytes + 1, Nat.succ_pos _, oversized_le_u64Max⟩) ∧
    (ScenarioScheduleV2Dto.ofSchedule
        (warmup ⟨maxLatencyBufferBytes + 1, Nat.succ_pos _, oversized_le_u64Max⟩)).intoInternal =
      .error "max_buffer_bytes must be at most 67108864" := by
  refine ⟨rfl, by decide, by decide, by decide⟩

end Eggchaos
