import Eggchaos.Driver
import Mathlib.Data.List.Nodup
/-!
# The registry of scenario runs

`scenario_registry.rs` keeps the records and cancellation tokens of the runs of
both scenario languages, and `control.rs` and the two run drivers change them, one
section of the registry lock at a time. A run goes through the stages of its
task. The driver's own work (waits, publications) shows here only in what it
writes: an event applied, and how the run ends.

The two families differ in what they record and in how a run ends: a schedule run
writes its status in one section and its cleanup in the next.
-/

namespace Eggchaos
open Lib

/-- `ScenarioRunStatus` and `ScheduleRunStatus`. -/
inductive RunStatus where
  | pending
  | running
  | cancelling
  | cancelled
  | completed
  | failed
deriving DecidableEq, Repr

namespace RunStatus

def active : RunStatus → Bool
  | .pending | .running | .cancelling => true
  | .cancelled | .completed | .failed => false

/-- The order of a lifecycle; the terminal statuses come last. -/
def rank : RunStatus → Nat
  | .pending => 0
  | .running => 1
  | .cancelling => 2
  | .cancelled | .completed | .failed => 3

end RunStatus

/-- How a run ends. -/
inductive Ending where
  | cancelled
  | completed
  | failed (reason : String)
deriving DecidableEq, Repr

def Ending.status : Ending → RunStatus
  | .cancelled => .cancelled
  | .completed => .completed
  | .failed _ => .failed

/-- What a record says of a run and changes: its trail of events, and in the
schedule family its cleanup. -/
structure RunRecord (ε κ : Type) where
  status : RunStatus
  applied : Nat
  failure : Option String
  events : List ε
  cleanup : κ
deriving DecidableEq, Repr

/-- The trail entry of a v1 event. -/
structure ScenarioEventResult where
  index : Nat
  atMs : Nat
  action : String
  proxy : String
  direction : Direction
  globalGeneration : Nat
  upstreamGeneration : Nat
  downstreamGeneration : Nat
deriving DecidableEq, Repr

structure CleanupOutcome where
  policy : CleanupPolicyV2
  resources : List CleanupResourceRecord
deriving DecidableEq, Repr

abbrev ScenarioRunRecord := RunRecord ScenarioEventResult Unit
abbrev ScenarioScheduleRunRecord := RunRecord ScheduleEventResult (Option CleanupOutcome)

namespace RunRecord
variable {ε κ : Type}

/-- The record a run is admitted with. -/
def admitted [Inhabited κ] : RunRecord ε κ := ⟨.pending, 0, none, [], default⟩

/-- The driver's first write. -/
def begin (r : RunRecord ε κ) : RunRecord ε κ := { r with status := .running }

def addEvent (e : ε) (r : RunRecord ε κ) : RunRecord ε κ := { r with applied := r.applied + 1, events := r.events ++ [e] }

/-- The second section of a cancellation. -/
def markCancelling (r : RunRecord ε κ) : RunRecord ε κ :=
  match r.status with
  | .pending | .running => { r with status := .cancelling }
  | _ => r

/-- The status a run ends with, and the reason of a failure. -/
def close (ending : Ending) (r : RunRecord ε κ) : RunRecord ε κ :=
  match ending with
  | .failed reason => { r with status := .failed, failure := some reason }
  | ending => { r with status := ending.status }

end RunRecord

/-! ## A family of runs -/

def scenarioFamilyCapacity : Nat := 32

/-- The records of a family in the order of their ids, and the tokens. -/
structure Family (ε κ : Type) where
  runs : List (Nat × RunRecord ε κ)
  tokens : List Nat
deriving DecidableEq, Repr

namespace Family
variable {ε κ : Type} (f : Family ε κ)

def get (id : Nat) : Option (RunRecord ε κ) := (f.runs.find? (·.1 = id)).map (·.2)

def activeCount : Nat := f.runs.countP (·.2.status.active)

def firstOldestFinished : Option Nat := (f.runs.find? (!·.2.status.active)).map (·.1)

def removeRun (id : Nat) : Family ε κ := ⟨f.runs.filter (·.1 ≠ id), f.tokens.filter (· ≠ id)⟩

def insertRun (id : Nat) (record : RunRecord ε κ) : List (Nat × RunRecord ε κ) → List (Nat × RunRecord ε κ)
  | [] => [(id, record)]
  | p :: rest =>
    if p.1 < id then p :: insertRun id record rest
    else if p.1 = id then (id, record) :: rest
    else (id, record) :: p :: rest

/-- The oldest finished run goes if the family is at its capacity. -/
def makeRoom : Family ε κ :=
  if scenarioFamilyCapacity ≤ f.runs.length then
    match f.firstOldestFinished with
    | some oldest => f.removeRun oldest
    | none => f
  else f

/-- `admit_v1_with_token` and `admit_v2_with_token`. -/
def admitRun (id : Nat) (record : RunRecord ε κ) : Option (Family ε κ) :=
  if scenarioFamilyCapacity ≤ f.activeCount then none
  else some ⟨insertRun id record f.makeRoom.runs, f.makeRoom.tokens ++ [id]⟩

/-- `update_v1` and `update_v2`. -/
def update (id : Nat) (g : RunRecord ε κ → RunRecord ε κ) : Family ε κ :=
  { f with runs := f.runs.map fun p => if p.1 = id then (p.1, g p.2) else p }

def dropToken (id : Nat) : Family ε κ := { f with tokens := f.tokens.filter (· ≠ id) }

end Family

/-! ## Stages of a run -/

/-- Where the task of a run is. -/
inductive Stage (κ : Type) where
  /-- No run has this id yet. -/
  | unused
  /-- `start` has the id and waits for the registry. -/
  | admitting
  /-- Registered, not spawned. -/
  | registered
  /-- Spawned, and not polled yet. -/
  | queued
  | preparing
  | driving
  /-- The status is written and the cleanup is not. -/
  | reporting (cleanup : κ)
  /-- The token is still to be removed. -/
  | leaving
  | ended
deriving DecidableEq, Repr

/-- What a run driver does to its record: the stage after each of its writes, and
the write itself. -/
class Program (δ : Type) (ε κ : outParam Type) where
  next : Stage κ → δ → Option (Stage κ)
  write : Stage κ → δ → RunRecord ε κ → RunRecord ε κ

/-- The writes of `drive_scenario_run`. -/
inductive DriveV1 where
  | begin
  | event (e : ScenarioEventResult)
  | finish (ending : Ending)
deriving DecidableEq, Repr

instance : Program DriveV1 ScenarioEventResult Unit where
  next
    | .queued, .begin => some .driving
    | .driving, .event _ => some .driving
    | .driving, .finish _ => some .leaving
    | _, _ => none
  write
    | _, .begin => RunRecord.begin
    | _, .event e => RunRecord.addEvent e
    | _, .finish ending => RunRecord.close ending

/-- The writes of `drive_schedule_v2_run`. -/
inductive DriveV2 where
  | begin
  /-- The preparation failed. -/
  | unprepared (reason : String) (policy : CleanupPolicyV2)
  | event (e : ScheduleEventResult)
  /-- The outcome is there: its status and count are written. -/
  | finish (ending : Ending) (applied : Nat) (cleanup : CleanupOutcome)
  /-- The cleanup of the outcome is written. -/
  | report
deriving DecidableEq, Repr

instance : Program DriveV2 ScheduleEventResult (Option CleanupOutcome) where
  next
    | .queued, .begin => some .preparing
    | .preparing, .unprepared _ _ => some .leaving
    | .preparing, .event _ | .driving, .event _ => some .driving
    | .preparing, .finish _ _ cleanup | .driving, .finish _ _ cleanup => some (.reporting (some cleanup))
    | .reporting _, .report => some .leaving
    | _, _ => none
  write
    | _, .begin => RunRecord.begin
    | _, .unprepared reason policy => fun r =>
      { r.close (.failed reason) with cleanup := some ⟨policy, []⟩ }
    | _, .event e => RunRecord.addEvent e
    | _, .finish ending applied _ => fun r => { r.close ending with applied }
    | .reporting cleanup, .report => fun r => { r with cleanup }
    | _, .report => id

/-- The runs of one family: the registry's side, the stages of their tasks, and
the cancellations that have taken a token and not marked the record yet. -/
structure Side (ε κ : Type) where
  family : Family ε κ
  stage : Nat → Stage κ
  marking : Nat → Bool

/-- The sections on one family. -/
inductive SideOp (δ : Type) where
  | admitRun (id : Nat)
  | spawn (id : Nat)
  /-- The first section of a cancellation takes the token. -/
  | takeToken (id : Nat)
  | mark (id : Nat)
  | drive (id : Nat) (deed : δ)
  /-- The driver removes the token and is done. -/
  | leave (id : Nat)
deriving DecidableEq, Repr

namespace Side
variable {ε κ δ : Type} [Inhabited κ] [Program δ ε κ]

def empty : Side ε κ := ⟨⟨[], []⟩, fun _ => .unused, fun _ => false⟩

def setStage (s : Side ε κ) (id : Nat) (stage : Stage κ) : Side ε κ :=
  { s with stage := fun id' => if id' = id then stage else s.stage id' }

def step (s : Side ε κ) : SideOp δ → Side ε κ
  | .admitRun id =>
    match s.stage id with
    | .admitting =>
      match s.family.admitRun id .admitted with
      | none => s.setStage id .ended
      | some family => { s with family }.setStage id .registered
    | _ => s
  | .spawn id =>
    match s.stage id with
    | .registered => s.setStage id .queued
    | _ => s
  | .takeToken id =>
    if id ∈ s.family.tokens then
      { s with family := s.family.dropToken id, marking := fun id' => if id' = id then true else s.marking id' }
    else s
  | .mark id =>
    if s.marking id then
      { s with
        family := s.family.update id .markCancelling
        marking := fun id' => if id' = id then false else s.marking id' }
    else s
  | .drive id deed =>
    match Program.next (s.stage id) deed with
    | none => s
    | some stage => { s with family := s.family.update id (Program.write (s.stage id) deed) }.setStage id stage
  | .leave id =>
    match s.stage id with
    | .leaving => { s with family := s.family.dropToken id }.setStage id .ended
    | _ => s

end Side

/-! ## The registry -/

structure ScenarioRegistry where
  nextRunId : Nat
  v1 : Side ScenarioEventResult Unit
  v2 : Side ScheduleEventResult (Option CleanupOutcome)

namespace ScenarioRegistry

inductive Op where
  /-- A validated scenario gets its run id. -/
  | startScenario
  | startScheduleV2
  | v1 (op : SideOp DriveV1)
  | v2 (op : SideOp DriveV2)
  /-- `cancel_all`, at shutdown. -/
  | cancelAll
deriving DecidableEq, Repr

def new : ScenarioRegistry := ⟨1, .empty, .empty⟩

def step (s : ScenarioRegistry) : Op → ScenarioRegistry
  | .startScenario => { s with nextRunId := s.nextRunId + 1, v1 := s.v1.setStage s.nextRunId .admitting }
  | .startScheduleV2 => { s with nextRunId := s.nextRunId + 1, v2 := s.v2.setStage s.nextRunId .admitting }
  | .v1 op => { s with v1 := s.v1.step op }
  | .v2 op => { s with v2 := s.v2.step op }
  | .cancelAll => { s with
      v1 := { s.v1 with family := { s.v1.family with tokens := [] } }
      v2 := { s.v2 with family := { s.v2.family with tokens := [] } } }

end ScenarioRegistry

end Eggchaos
