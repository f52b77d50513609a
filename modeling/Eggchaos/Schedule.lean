import Eggchaos.DatagramPlan
/-!
# Schedules and their compilation

The schedule source language of `source.rs` and the compiler of `compiler.rs`.
A schedule is a list of phases with an optional repeated block; it compiles to
a flat tape of events with absolute offsets and stable indices, or to nothing.
-/

namespace Eggchaos
open Lib

def maxCompiledEvents : Nat := 1024
def maxPhases : Nat := 256
def maxPhaseActions : Nat := 64
def maxRepeatCount : Nat := 64
def maxPhaseNameBytes : Nat := 128
def scheduleSchemaVersion : Nat := 2
def compilerSemanticsVersion : Nat := 1

inductive IsolationPolicyV2 where
  | strict
  | live
deriving DecidableEq, Repr

inductive CleanupPolicyV2 where
  | restoreInitial
  | leave
deriving DecidableEq, Repr

/-- A directional policy change; the id of a removal is a plain string. -/
inductive ScenarioAction where
  | setPlan (proxy : String) (direction : Direction) (faults : List FaultSpec)
  | removeFault (proxy : String) (direction : Direction) (id : String)
  | setDatagramPlan (proxy : String) (direction : Direction) (faults : List DatagramFaultSpec)
  | removeDatagramFault (proxy : String) (direction : Direction) (id : String)
deriving DecidableEq, Repr

structure SchedulePhaseV2 where
  name : Option String
  durationNs : Nat
  actions : List ScenarioAction
deriving DecidableEq, Repr

structure ScheduleRepeatV2 where
  count : Nat
  phases : List SchedulePhaseV2
deriving DecidableEq, Repr

structure ScenarioScheduleV2 where
  version : Nat
  seed : UInt64
  executionKey : UInt64
  isolation : IsolationPolicyV2
  cleanup : CleanupPolicyV2
  phases : List SchedulePhaseV2
  repeatBlock : Option ScheduleRepeatV2
deriving DecidableEq, Repr

inductive ScheduleError where
  | unsupportedVersion (version : Nat)
  | tooManyCompiledEvents (count : Nat)
  | repeatOutOfRange (got : Nat)
  | tooManyPhases (got : Nat)
  | tooManyRepeatPhases (got : Nat)
  | tooManyPhaseActions (got : Nat)
  | invalidPhaseName
  | offsetOverflow
  | emptyPhase
  | emptySchedule
  | invalidStreamPlan (detail : String)
  | invalidDatagramPlan (detail : String)
deriving DecidableEq, Repr

/-! ## Structure -/

/-- The checks of one phase, the same for top-level and repeated phases. -/
def SchedulePhaseV2.check (phase : SchedulePhaseV2) : Except ScheduleError Unit :=
  if phase.actions.isEmpty then .error .emptyPhase
  else if maxPhaseActions < phase.actions.length then .error (.tooManyPhaseActions phase.actions.length)
  else match phase.name with
    | some name => if name = "" ∨ maxPhaseNameBytes < name.utf8ByteSize then .error .invalidPhaseName else .ok ()
    | none => .ok ()

/-- The bounds of the repeat block. -/
def ScheduleRepeatV2.check (block : ScheduleRepeatV2) : Except ScheduleError Unit :=
  if block.count = 0 ∨ maxRepeatCount < block.count then .error (.repeatOutOfRange block.count)
  else if maxPhases < block.phases.length then .error (.tooManyRepeatPhases block.phases.length)
  else .ok ()

namespace ScenarioScheduleV2

/-- `ScenarioScheduleV2::check_structure`. -/
def checkStructure (source : ScenarioScheduleV2) : Except ScheduleError Unit := do
  if source.version ≠ scheduleSchemaVersion then throw (.unsupportedVersion source.version)
  if maxPhases < source.phases.length then throw (.tooManyPhases source.phases.length)
  if let some block := source.repeatBlock then block.check
  source.phases.forM SchedulePhaseV2.check
  if let some block := source.repeatBlock then
    if block.phases.isEmpty then throw .emptySchedule
    block.phases.forM SchedulePhaseV2.check
  if source.phases.isEmpty && source.repeatBlock.isNone then throw .emptySchedule

/-- `flattened_phases`: the top-level phases and `count` copies of the block. -/
def flattenedPhases (source : ScenarioScheduleV2) : List SchedulePhaseV2 :=
  source.phases ++ match source.repeatBlock with
    | some block => (List.replicate block.count block.phases).flatten
    | none => []

end ScenarioScheduleV2

/-! ## Compilation -/

inductive CompiledPhaseIdentity where
  | top (index : Nat)
  | repeated (iteration index : Nat)
deriving DecidableEq, Repr

structure CompiledEventV2 where
  compiledIndex : Nat
  phase : CompiledPhaseIdentity
  offsetNs : Nat
  action : ScenarioAction
deriving DecidableEq, Repr

structure CompiledScenarioV2 where
  compilerSemanticsVersion : Nat
  seed : UInt64
  executionKey : UInt64
  isolation : IsolationPolicyV2
  cleanup : CleanupPolicyV2
  events : List CompiledEventV2
  totalDurationNs : Nat
deriving DecidableEq, Repr

/-- The plan or id of one action is valid. -/
def ScenarioAction.validate : ScenarioAction → Except ScheduleError Unit
  | .setPlan _ _ faults =>
    match FaultPlan.new faults with
    | .error e => .error (.invalidStreamPlan e.message)
    | .ok _ => .ok ()
  | .setDatagramPlan _ _ faults =>
    match DatagramPlan.new faults with
    | .error e => .error (.invalidDatagramPlan e)
    | .ok _ => .ok ()
  | .removeFault _ _ id | .removeDatagramFault _ _ id =>
    match FaultId.new id with
    | .error e => .error (.invalidStreamPlan e.message)
    | .ok _ => .ok ()

/-- `validate_phase_actions`. -/
def validatePhaseActions (phase : SchedulePhaseV2) : Except ScheduleError Unit := do
  if maxPhaseActions < phase.actions.length then throw (.tooManyPhaseActions phase.actions.length)
  phase.actions.forM ScenarioAction.validate

/-- The running offset and the next event index. -/
structure Cursor where
  offsetNs : Nat
  index : Nat
deriving DecidableEq, Repr

/-- The events of one phase, all at its start, and the cursor after it. -/
def expandPhase (identity : CompiledPhaseIdentity) (phase : SchedulePhaseV2) (cursor : Cursor) :
    Except ScheduleError (List CompiledEventV2 × Cursor) :=
  let events := phase.actions.mapIdx fun k action => ⟨cursor.index + k, identity, cursor.offsetNs, action⟩
  if cursor.offsetNs + phase.durationNs ≤ u64Max then
    .ok (events, ⟨cursor.offsetNs + phase.durationNs, cursor.index + phase.actions.length⟩)
  else .error .offsetOverflow

/-- Phases in order from phase index `k` on, each checked before it expands. -/
def expandPhases (identity : Nat → CompiledPhaseIdentity) (check : SchedulePhaseV2 → Except ScheduleError Unit) :
    Nat → List SchedulePhaseV2 → Cursor → Except ScheduleError (List CompiledEventV2 × Cursor)
  | _, [], cursor => .ok ([], cursor)
  | k, phase :: phases, cursor => do
    check phase
    let (events, cursor) ← expandPhase (identity k) phase cursor
    let (rest, cursor) ← expandPhases identity check (k + 1) phases cursor
    return (events ++ rest, cursor)

/-- The remaining iterations of the repeat block, numbered from one. -/
def expandRepeat (phases : List SchedulePhaseV2) :
    Nat → Nat → Cursor → Except ScheduleError (List CompiledEventV2 × Cursor)
  | 0, _, cursor => .ok ([], cursor)
  | remaining + 1, iteration, cursor => do
    let (events, cursor) ← expandPhases (.repeated iteration) (fun _ => .ok ()) 0 phases cursor
    let (rest, cursor) ← expandRepeat phases remaining (iteration + 1) cursor
    return (events ++ rest, cursor)

/-- `compile_schedule`. -/
def compileSchedule (source : ScenarioScheduleV2) : Except ScheduleError CompiledScenarioV2 := do
  source.checkStructure
  let total := (source.flattenedPhases.map (·.actions.length)).sum
  if maxCompiledEvents < total then throw (.tooManyCompiledEvents total)
  let (events, cursor) ← expandPhases .top validatePhaseActions 0 source.phases ⟨0, 0⟩
  let (events, cursor) ← match source.repeatBlock with
    | none => pure (events, cursor)
    | some block => do
      if maxRepeatCount < block.count then throw (.repeatOutOfRange block.count)
      if maxPhases < block.phases.length then throw (.tooManyRepeatPhases block.phases.length)
      block.phases.forM validatePhaseActions
      let (rest, cursor) ← expandRepeat block.phases block.count 1 cursor
      pure (events ++ rest, cursor)
  if maxCompiledEvents < events.length then throw (.tooManyCompiledEvents events.length)
  return {
    compilerSemanticsVersion
    seed := source.seed
    executionKey := source.executionKey
    isolation := source.isolation
    cleanup := source.cleanup
    events
    totalDurationNs := cursor.offsetNs }

/-! ## The tape of an accepted schedule -/

theorem except_bind_ok {ε α β : Type} {x : Except ε α} {f : α → Except ε β} {b : β} (h : x >>= f = .ok b) :
    ∃ a, x = .ok a ∧ f a = .ok b := by
  cases x with
  | error e => cases h
  | ok a => exact ⟨a, rfl, h⟩

theorem except_mapError_ok {ε δ α : Type} {x : Except ε α} {f : ε → δ} {a : α} (h : x.mapError f = .ok a) :
    x = .ok a := by
  cases x with
  | error e => cases h
  | ok b => cases h; rfl

/-- The tape is that of the top-level phases, then that of the repeat block. -/
theorem compileSchedule_ok {source : ScenarioScheduleV2} {compiled : CompiledScenarioV2}
    (h : compileSchedule source = .ok compiled) :
    ∃ top tape cursor cursor', expandPhases .top validatePhaseActions 0 source.phases ⟨0, 0⟩ = .ok (top, cursor) ∧
      (tape = [] ∧ cursor' = cursor ∨
        ∃ block, source.repeatBlock = some block ∧ expandRepeat block.phases block.count 1 cursor = .ok (tape, cursor')) ∧
      compiled = {
        compilerSemanticsVersion
        seed := source.seed
        executionKey := source.executionKey
        isolation := source.isolation
        cleanup := source.cleanup
        events := top ++ tape
        totalDurationNs := cursor'.offsetNs } := by
  unfold compileSchedule at h
  obtain ⟨-, -, h⟩ := except_bind_ok h
  simp only at h
  split at h
  · cases h
  · obtain ⟨-, -, h⟩ := except_bind_ok h
    obtain ⟨⟨top, cursor⟩, htop, h⟩ := except_bind_ok h
    refine ⟨top, ?_⟩
    cases hrepeat : source.repeatBlock with
    | none =>
      rw [hrepeat] at h
      obtain ⟨⟨events, cursor'⟩, hpure, h⟩ := except_bind_ok h
      cases hpure
      split at h
      · cases h
      · cases h
        exact ⟨[], cursor, cursor, htop, .inl ⟨rfl, rfl⟩, by simp⟩
    | some block =>
      rw [hrepeat] at h
      simp only at h
      split at h
      · cases h
      · split at h
        · cases h
        · obtain ⟨-, -, h⟩ := except_bind_ok h
          obtain ⟨⟨rest, cursor'⟩, hrest, h⟩ := except_bind_ok h
          obtain ⟨⟨events, cursor''⟩, hpure, h⟩ := except_bind_ok h
          cases hpure
          split at h
          · cases h
          · cases h
            exact ⟨rest, cursor, cursor', htop, .inr ⟨block, rfl, hrest⟩, rfl⟩

/-- The events are numbered on from `start`, and the cursor stands behind them. -/
structure Numbered (start : Nat) (tape : List CompiledEventV2 × Cursor) : Prop where
  indices : tape.1.map (·.compiledIndex) = List.range' start tape.1.length
  cursor : tape.2.index = start + tape.1.length

theorem Numbered.append {start : Nat} {events rest : List CompiledEventV2} {cursor cursor' : Cursor}
    (h : Numbered start (events, cursor)) (h' : Numbered cursor.index (rest, cursor')) :
    Numbered start (events ++ rest, cursor') := by
  obtain ⟨hi, hc⟩ := h
  obtain ⟨hi', hc'⟩ := h'
  simp only at hi hc hi' hc'
  constructor
  · simp only [List.map_append, List.length_append, hi, hi', hc]
    exact List.range'_append_1
  · simp only [List.length_append]
    omega

theorem expandPhase_numbered {identity : CompiledPhaseIdentity} {phase : SchedulePhaseV2} {cursor : Cursor}
    {tape : List CompiledEventV2 × Cursor} (h : expandPhase identity phase cursor = .ok tape) :
    Numbered cursor.index tape := by
  unfold expandPhase at h
  simp only at h
  split at h
  · cases h
    constructor
    · apply List.ext_getElem
      · simp
      · intro k hk hk'
        simp
    · simp
  · cases h

theorem expandPhases_numbered {identity : Nat → CompiledPhaseIdentity}
    {check : SchedulePhaseV2 → Except ScheduleError Unit} {k : Nat} {phases : List SchedulePhaseV2} {cursor : Cursor}
    {tape : List CompiledEventV2 × Cursor} (h : expandPhases identity check k phases cursor = .ok tape) :
    Numbered cursor.index tape := by
  induction phases generalizing k cursor tape with
  | nil =>
    cases h
    exact ⟨rfl, rfl⟩
  | cons phase phases ih =>
    unfold expandPhases at h
    obtain ⟨-, -, h⟩ := except_bind_ok h
    obtain ⟨⟨events, cursor'⟩, hphase, h⟩ := except_bind_ok h
    obtain ⟨⟨rest, cursor''⟩, hrest, h⟩ := except_bind_ok h
    cases h
    exact (expandPhase_numbered hphase).append (ih hrest)

theorem expandRepeat_numbered {phases : List SchedulePhaseV2} {remaining iteration : Nat} {cursor : Cursor}
    {tape : List CompiledEventV2 × Cursor} (h : expandRepeat phases remaining iteration cursor = .ok tape) :
    Numbered cursor.index tape := by
  induction remaining generalizing iteration cursor tape with
  | zero =>
    cases h
    exact ⟨rfl, rfl⟩
  | succ remaining ih =>
    unfold expandRepeat at h
    obtain ⟨⟨events, cursor'⟩, hphases, h⟩ := except_bind_ok h
    obtain ⟨⟨rest, cursor''⟩, hrest, h⟩ := except_bind_ok h
    cases h
    exact (expandPhases_numbered hphases).append (ih hrest)

/-- The events of an accepted schedule are numbered from zero, in order. -/
theorem compileSchedule_numbered {source : ScenarioScheduleV2} {compiled : CompiledScenarioV2}
    (h : compileSchedule source = .ok compiled) :
    compiled.events.map (·.compiledIndex) = List.range compiled.events.length := by
  obtain ⟨top, tape, cursor, cursor', htop, hrest, rfl⟩ := compileSchedule_ok h
  have hnumbered := expandPhases_numbered htop
  have hall : Numbered 0 (top ++ tape, cursor') := by
    rcases hrest with ⟨rfl, rfl⟩ | ⟨block, -, hrepeat⟩
    · simpa using hnumbered
    · exact hnumbered.append (expandRepeat_numbered hrepeat)
  rw [List.range_eq_range']
  exact hall.indices

end Eggchaos
