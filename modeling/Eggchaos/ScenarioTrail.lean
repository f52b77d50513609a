import Eggchaos.CheckedSeeds
import Eggchaos.Scenarios
import Eggchaos.ServerTarget
import Eggchaos.Toxics
/-!
# The trail of a v1 scenario run

`drive_scenario_run` publishes the plans of a scenario event by event and appends
an entry with the generations of each. A stream publication returns the generation
of the policy. A datagram publication makes one too, drops it and returns the
configuration generation of the whole server, and that is what the entry shows
(`trail_generations_iff`).

A step is one section of the run, or something that another task does to the
server. The configuration counter is an atomic, so it moves in a section of its
own. What a run waits for, and for how long, is left to the steps.
-/

namespace Eggchaos
open Lib

structure ScenarioEvent where
  atMs : Nat
  action : ScenarioAction
deriving DecidableEq, Repr

structure Scenario where
  seed : UInt64
  events : List ScenarioEvent
deriving DecidableEq, Repr

namespace Target

/-- A policy is replaced. -/
def setCell (t : Target) (r : ScheduleResource) (cell : Cell) : Target :=
  { t with cells := fun r' => if r' = r then some cell else t.cells r' }

/-- `next_generation`. -/
def bump (t : Target) : Target := { t with globalGeneration := (t.globalGeneration + 1) % 2 ^ 64 }

end Target

/-- A proxy's stream plan; there is no other kind of plan under a stream proxy. -/
def TargetPlan.faultPlan : TargetPlan → FaultPlan
  | .stream plan => plan
  | .datagram _ => .empty

def TargetPlan.datagramPlan : TargetPlan → DatagramPlan
  | .stream _ => .empty
  | .datagram plan => plan

/-- The event in hand, its index, and those after it. -/
structure ScenarioTurn where
  index : Nat
  event : ScenarioEvent
  rest : List ScenarioEvent
deriving DecidableEq, Repr

def ScenarioTurn.resource (a : ScenarioTurn) : ScheduleResource := a.event.action.resource

/-- A datagram publication: the generation it gave the policy, which the program
drops, and the configuration counter it then found. -/
structure DatagramOutcome where
  created : Nat
  counter : Nat
deriving DecidableEq, Repr

/-- What `publish_datagram_plan` returns. -/
def DatagramOutcome.returned (p : DatagramOutcome) : Nat := (p.counter + 1) % 2 ^ 64

/-- The section a run is before. -/
inductive TrailPhase where
  /-- The wait for the first of these events, which has this index. -/
  | sleeping (index : Nat) (events : List ScenarioEvent)
  -- datagram events
  | readingBase (a : ScenarioTurn)
  | readingOther (a : ScenarioTurn) (base : Cell) (replacement : List DatagramFaultSpec)
  | publishingDatagram (a : ScenarioTurn) (base : Cell) (plan : DatagramPlan)
  | countingDatagram (a : ScenarioTurn) (base : Cell) (created : Nat)
  | recheckingOther (a : ScenarioTurn) (base : Cell) (outcome : DatagramOutcome)
  | recheckingOwn (a : ScenarioTurn) (base : Cell) (outcome : DatagramOutcome) (other : DatagramPlan)
  | readingOwn (a : ScenarioTurn) (base : Cell)
  | compensating (a : ScenarioTurn) (base own : Cell)
  | countingCompensation (a : ScenarioTurn)
  | readingOtherGeneration (a : ScenarioTurn) (outcome : DatagramOutcome)
  -- stream events
  | snapshotting (a : ScenarioTurn)
  | publishing (a : ScenarioTurn) (plan : FaultPlan) (expected other : Nat)
  | counting (a : ScenarioTurn) (created other : Nat)
  /-- The entry is about to be appended. -/
  | appending (a : ScenarioTurn) (entry : ScenarioEventResult) (created : Nat) (outcome : Option DatagramOutcome)
  | finished

/-- A run, the server it runs on, and what it has recorded. `created` has, for each
entry of the trail, the generation under which its plan was published. -/
structure TrailRun where
  target : Target
  phase : TrailPhase
  record : ScenarioRunRecord
  created : List Nat

namespace TrailRun

/-! ## Publications -/

/-- The plan under the next generation of its policy. -/
def successor (cell : Cell) (plan : TargetPlan) (seedNamespace : UInt64) (overflow : String) : Except ControlError Cell :=
  if cell.generation = u64Max then .error (.invalid overflow)
  else .ok ⟨cell.generation + 1, plan, seedNamespace, .run⟩

/-- `publish_direction_expected` before it moves the configuration counter. -/
def publishDirectionExpected (t : Target) (r : ScheduleResource) (plan : FaultPlan) (seedNamespace : UInt64)
    (expected : Nat) : Except ControlError Cell :=
  match t.cells r with
  | none => .error (.notFound r.proxy)
  | some cell =>
    match plan.validate with
    | .error e => .error (.invalid e.message)
    | .ok () =>
      if cell.generation ≠ expected then
        .error (.conflict (ProxySpec.conflictMessage r.proxy ⟨expected, cell.generation⟩))
      else successor cell (.stream plan) seedNamespace ValidationError.generationOverflow.message

/-- `publish_fault_plan`, the section of `publish_datagram_plan` before it moves the
configuration counter. -/
def publishFaultPlan (t : Target) (r : ScheduleResource) (plan : DatagramPlan) (seedNamespace : UInt64) (expected : Nat) :
    Except ControlError Cell :=
  match plan.validate with
  | .error e => .error (.invalid e)
  | .ok () =>
    match t.cells r with
    | none => .error (.notFound r.proxy)
    | some cell =>
      if cell.generation ≠ expected then
        .error (.conflict ("generation moved from " ++ toString expected ++ " to " ++ toString cell.generation))
      else successor cell (.datagram plan) seedNamespace "generation overflow"

/-! ## Sections of the run -/

variable (scenario : Scenario) (runId : UInt64) (s : TrailRun)

/-- `fail_run`. -/
def fail (reason : String) : TrailRun := { s with phase := .finished, record := s.record.close (.failed reason) }

/-- The next event of the loop, or its end. -/
def next (index : Nat) (events : List ScenarioEvent) : TrailRun :=
  match events with
  | [] => { s with phase := .finished, record := s.record.close .completed }
  | _ :: _ => { s with phase := .sleeping index events }

def namespaceOf (a : ScenarioTurn) : UInt64 := derivePolicySeed scenario.seed runId a.index.toUInt64

/-- The faults two plans have in common by their ids. -/
def shareIds (faults others : List DatagramFaultSpec) : Bool :=
  faults.any fun fault => others.any fun existing => existing.id = fault.id

def acrossDirectionsText : String := "datagram fault IDs must be unique across directions"

def datagramProxyNotFound (a : ScenarioTurn) : String :=
  "scenario datagram proxy " ++ a.resource.proxy ++ " not found: " ++ (ControlError.notFound a.resource.proxy).message

def proxyNotFound (a : ScenarioTurn) : String := "scenario proxy " ++ a.resource.proxy ++ " not found"

def eventFailed (e : ControlError) : String := "scenario event failed: " ++ e.message

/-- The entry of an event; the other direction's generation was read on the way. -/
def entryOf (a : ScenarioTurn) (globalGeneration own other : Nat) : ScenarioEventResult where
  index := a.index
  atMs := a.event.atMs
  action := a.event.action.name
  proxy := a.resource.proxy
  direction := a.resource.direction
  globalGeneration
  upstreamGeneration := match a.resource.direction with
    | .upstream => own
    | .downstream => other
  downstreamGeneration := match a.resource.direction with
    | .upstream => other
    | .downstream => own

/-- The wait for an event is over. -/
def onDue : TrailRun :=
  match s.phase with
  | .sleeping index (event :: rest) =>
    match event.action with
    | .setDatagramPlan _ _ _ | .removeDatagramFault _ _ _ => { s with phase := .readingBase ⟨index, event, rest⟩ }
    | .setPlan _ _ _ | .removeFault _ _ _ => { s with phase := .snapshotting ⟨index, event, rest⟩ }
  | _ => s

/-- The token is cancelled while the run waits for an event. -/
def onCancelled : TrailRun :=
  match s.phase with
  | .sleeping _ _ => { s with phase := .finished, record := s.record.close .cancelled }
  | _ => s

/-- The faults an event leaves become the plan it publishes. -/
def prepare (a : ScenarioTurn) (base : Cell) (faults : List DatagramFaultSpec) : TrailRun :=
  match DatagramPlan.new faults with
  | .error e => s.fail ("scenario datagram plan invalid: " ++ e)
  | .ok plan => { s with phase := .publishingDatagram a base plan }

def onBase (a : ScenarioTurn) : TrailRun :=
  match s.target.cells a.resource with
  | none => s.fail (datagramProxyNotFound a)
  | some base =>
    match a.event.action with
    | .setDatagramPlan _ _ replacement =>
      match DatagramPlan.new replacement with
      | .error e => s.fail ("scenario datagram plan invalid: " ++ e)
      | .ok _ => { s with phase := .readingOther a base replacement }
    | .removeDatagramFault proxy _ id =>
      let faults := base.plan.datagramPlan.faults
      if !faults.any (·.id.value = id) then
        s.fail ("scenario datagram fault " ++ id ++ " not present on " ++ proxy)
      else s.prepare a base (faults.filter (·.id.value ≠ id))
    | .setPlan _ _ _ | .removeFault _ _ _ => s

def onOther (a : ScenarioTurn) (base : Cell) (replacement : List DatagramFaultSpec) : TrailRun :=
  match s.target.cells (DriveState.sibling a.resource) with
  | none => s.fail (datagramProxyNotFound a)
  | some other =>
    if shareIds replacement other.plan.datagramPlan.faults then s.fail acrossDirectionsText
    else s.prepare a base replacement

def onPublishDatagram (a : ScenarioTurn) (base : Cell) (plan : DatagramPlan) : TrailRun :=
  match publishFaultPlan s.target a.resource plan (namespaceOf scenario runId a) base.generation with
  | .error e => s.fail (eventFailed e)
  | .ok cell => { s with target := s.target.setCell a.resource cell, phase := .countingDatagram a base cell.generation }

/-- The counter moves on; a plan that was set is then looked at again. -/
def onCountDatagram (a : ScenarioTurn) (base : Cell) (created : Nat) : TrailRun :=
  let outcome : DatagramOutcome := ⟨created, s.target.globalGeneration⟩
  match a.event.action with
  | .setDatagramPlan _ _ _ => { s with target := s.target.bump, phase := .recheckingOther a base outcome }
  | _ => { s with target := s.target.bump, phase := .readingOtherGeneration a outcome }

def onRecheckOther (a : ScenarioTurn) (base : Cell) (outcome : DatagramOutcome) : TrailRun :=
  match s.target.cells (DriveState.sibling a.resource) with
  | none => { s with phase := .readingOtherGeneration a outcome }
  | some other => { s with phase := .recheckingOwn a base outcome other.plan.datagramPlan }

def onRecheckOwn (a : ScenarioTurn) (base : Cell) (outcome : DatagramOutcome) (other : DatagramPlan) : TrailRun :=
  match s.target.cells a.resource with
  | none => { s with phase := .readingOtherGeneration a outcome }
  | some own =>
    if shareIds own.plan.datagramPlan.faults other.faults then { s with phase := .readingOwn a base }
    else { s with phase := .readingOtherGeneration a outcome }

/-- A duplicate: the plan from before is put back, if nobody else has published. -/
def onOwn (a : ScenarioTurn) (base : Cell) : TrailRun :=
  match s.target.cells a.resource with
  | none => s.fail acrossDirectionsText
  | some own => { s with phase := .compensating a base own }

def onCompensate (a : ScenarioTurn) (base own : Cell) : TrailRun :=
  match publishFaultPlan s.target a.resource base.plan.datagramPlan own.seedNamespace own.generation with
  | .error _ => s.fail acrossDirectionsText
  | .ok cell => { s with target := s.target.setCell a.resource cell, phase := .countingCompensation a }

def onCountCompensation : TrailRun := { s with target := s.target.bump }.fail acrossDirectionsText

def onOtherGeneration (a : ScenarioTurn) (outcome : DatagramOutcome) : TrailRun :=
  match s.target.cells (DriveState.sibling a.resource) with
  | none => s.fail (proxyNotFound a)
  | some other =>
    let entry := entryOf a s.target.globalGeneration outcome.returned other.generation
    { s with phase := .appending a entry outcome.created (some outcome) }

/-- The plan a stream event makes of the one it found. -/
def nextPlan (action : ScenarioAction) (base : FaultPlan) : Except String FaultPlan :=
  match action with
  | .setPlan _ _ faults =>
    match FaultPlan.new faults with
    | .error e => .error ("scenario plan invalid: " ++ e.message)
    | .ok plan => .ok plan
  | .removeFault proxy _ id =>
    match base.get id with
    | none => .error ("scenario fault " ++ id ++ " not present on " ++ proxy)
    | some _ => .ok (base.withoutFault id)
  | .setDatagramPlan _ _ _ | .removeDatagramFault _ _ _ => .ok base

def onSnapshot (a : ScenarioTurn) : TrailRun :=
  match s.target.cells a.resource, s.target.cells (DriveState.sibling a.resource) with
  | some own, some other =>
    match nextPlan a.event.action own.plan.faultPlan with
    | .error reason => s.fail reason
    | .ok plan => { s with phase := .publishing a plan own.generation other.generation }
  | _, _ => s.fail (proxyNotFound a)

def onPublish (a : ScenarioTurn) (plan : FaultPlan) (expected other : Nat) : TrailRun :=
  match publishDirectionExpected s.target a.resource plan (namespaceOf scenario runId a) expected with
  | .error e => s.fail (eventFailed e)
  | .ok cell => { s with target := s.target.setCell a.resource cell, phase := .counting a cell.generation other }

def onCount (a : ScenarioTurn) (created other : Nat) : TrailRun :=
  let target := s.target.bump
  { s with target, phase := .appending a (entryOf a target.globalGeneration created other) created none }

/-- `update_scenario_run` with the entry. -/
def onAppend (a : ScenarioTurn) (entry : ScenarioEventResult) (created : Nat) : TrailRun :=
  { s with record := s.record.addEvent entry, created := s.created ++ [created] }.next (a.index + 1) a.rest

/-- The section the run is before. -/
def onCall : TrailRun :=
  match s.phase with
  | .readingBase a => s.onBase a
  | .readingOther a base replacement => s.onOther a base replacement
  | .publishingDatagram a base plan => s.onPublishDatagram scenario runId a base plan
  | .countingDatagram a base created => s.onCountDatagram a base created
  | .recheckingOther a base outcome => s.onRecheckOther a base outcome
  | .recheckingOwn a base outcome other => s.onRecheckOwn a base outcome other
  | .readingOwn a base => s.onOwn a base
  | .compensating a base own => s.onCompensate a base own
  | .countingCompensation _ => s.onCountCompensation
  | .readingOtherGeneration a outcome => s.onOtherGeneration a outcome
  | .snapshotting a => s.onSnapshot a
  | .publishing a plan expected other => s.onPublish scenario runId a plan expected other
  | .counting a created other => s.onCount a created other
  | .appending a entry created _ => s.onAppend a entry created
  | .sleeping _ _ | .finished => s

inductive Op where
  | due
  | cancelled
  /-- The next section of the run. -/
  | call
  /-- Another task publishes a plan. -/
  | publish (r : ScheduleResource) (plan : TargetPlan) (seedNamespace : UInt64)
  /-- Another task moves the configuration counter. -/
  | count
  | delete (proxy : String) (transport : ScheduleTransport)
  | create (proxy : String) (transport : ScheduleTransport) (plans : Direction → TargetPlan) (seedNamespace : UInt64)

/-- What another task does to the server. -/
def external (t : Target) : Op → Target
  | .publish r plan seedNamespace =>
    match t.cells r with
    | none => t
    | some cell =>
      if cell.generation = u64Max then t
      else t.setCell r ⟨cell.generation + 1, plan, seedNamespace, .external⟩
  | .count => t.bump
  | .delete proxy transport =>
    { t with cells := fun r => if ServerRun.belongs proxy transport r then none else t.cells r }
  | .create proxy transport plans seedNamespace =>
    if (t.cells ⟨proxy, .upstream, transport⟩).isSome then t
    else
      { t with cells := fun r =>
          if ServerRun.belongs proxy transport r then some ⟨1, plans r.direction, seedNamespace, .external⟩ else t.cells r }
  | .due | .cancelled | .call => t

def step : Op → TrailRun
  | .due => s.onDue
  | .cancelled => s.onCancelled
  | .call => s.onCall scenario runId
  | op => { s with target := external s.target op }

/-- The run begins. -/
def start (policies : ScheduleResource → Option (Nat × TargetPlan × UInt64)) (globalGeneration : Nat) : TrailRun :=
  let s : TrailRun := {
    target := .before policies globalGeneration
    phase := .finished
    record := RunRecord.admitted.begin
    created := [] }
  s.next 0 scenario.events

/-! ## What the trail says -/

/-- The generation an entry gives for the direction of its event. -/
def ownGeneration (entry : ScenarioEventResult) : Nat :=
  match entry.direction with
  | .upstream => entry.upstreamGeneration
  | .downstream => entry.downstreamGeneration

/-- Every entry has the generation under which its plan was published. -/
def Truthful : Prop := s.record.events.map ownGeneration = s.created

instance Truthful.decidable : Decidable s.Truthful := inferInstanceAs (Decidable (_ = _))

/-- An entry of a datagram event is appended only if the configuration counter was
just below the new generation of the policy when its publication moved it on. -/
def Coincides (s : TrailRun) : Op → Prop
  | .call => match s.phase with
    | .appending _ _ _ (some outcome) => (outcome.counter + 1) % 2 ^ 64 = outcome.created
    | _ => True
  | _ => True

/-- The entry in hand has the generation that its publication returned. -/
def Assembled : Prop :=
  match s.phase with
  | .appending _ entry created none => ownGeneration entry = created
  | .appending _ entry created (some outcome) => ownGeneration entry = outcome.returned ∧ created = outcome.created
  | _ => True

variable {scenario runId s}

@[simp] theorem ownGeneration_entryOf (a : ScenarioTurn) (globalGeneration own other : Nat) :
    ownGeneration (entryOf a globalGeneration own other) = own := by
  unfold ownGeneration entryOf
  dsimp only
  cases a.resource.direction <;> rfl

/-- A section that appends nothing, and has an assembled entry in hand if any. -/
structure Quiet (s s' : TrailRun) : Prop where
  events : s'.record.events = s.record.events
  created : s'.created = s.created
  assembled : s'.Assembled

theorem fail_quiet (reason : String) : Quiet s (s.fail reason) := ⟨rfl, rfl, trivial⟩

theorem next_quiet (index : Nat) (events : List ScenarioEvent) : Quiet s (s.next index events) := by
  cases events <;> exact ⟨rfl, rfl, trivial⟩

theorem prepare_quiet (a : ScenarioTurn) (base : Cell) (faults : List DatagramFaultSpec) :
    Quiet s (s.prepare a base faults) := by
  unfold prepare
  cases DatagramPlan.new faults with
  | error e => exact fail_quiet _
  | ok plan => exact ⟨rfl, rfl, trivial⟩

theorem onDue_quiet (h : s.Assembled) : Quiet s s.onDue := by
  unfold onDue
  split
  · split <;> exact ⟨rfl, rfl, trivial⟩
  · exact ⟨rfl, rfl, h⟩

theorem onCancelled_quiet (h : s.Assembled) : Quiet s s.onCancelled := by
  unfold onCancelled
  split
  · exact ⟨rfl, rfl, trivial⟩
  · exact ⟨rfl, rfl, h⟩

theorem onBase_quiet (h : s.Assembled) (a : ScenarioTurn) : Quiet s (s.onBase a) := by
  unfold onBase
  split
  · exact fail_quiet _
  · split
    · split
      · exact fail_quiet _
      · exact ⟨rfl, rfl, trivial⟩
    · dsimp only
      split
      · exact fail_quiet _
      · exact prepare_quiet _ _ _
    · exact ⟨rfl, rfl, h⟩
    · exact ⟨rfl, rfl, h⟩

theorem onOther_quiet (a : ScenarioTurn) (base : Cell) (replacement : List DatagramFaultSpec) :
    Quiet s (s.onOther a base replacement) := by
  unfold onOther
  split
  · exact fail_quiet _
  · split
    · exact fail_quiet _
    · exact prepare_quiet _ _ _

theorem onPublishDatagram_quiet (a : ScenarioTurn) (base : Cell) (plan : DatagramPlan) :
    Quiet s (s.onPublishDatagram scenario runId a base plan) := by
  unfold onPublishDatagram
  split
  · exact fail_quiet _
  · exact ⟨rfl, rfl, trivial⟩

theorem onCountDatagram_quiet (a : ScenarioTurn) (base : Cell) (created : Nat) :
    Quiet s (s.onCountDatagram a base created) := by
  unfold onCountDatagram
  dsimp only
  split <;> exact ⟨rfl, rfl, trivial⟩

theorem onRecheckOther_quiet (a : ScenarioTurn) (base : Cell) (outcome : DatagramOutcome) :
    Quiet s (s.onRecheckOther a base outcome) := by
  unfold onRecheckOther
  split <;> exact ⟨rfl, rfl, trivial⟩

theorem onRecheckOwn_quiet (a : ScenarioTurn) (base : Cell) (outcome : DatagramOutcome) (other : DatagramPlan) :
    Quiet s (s.onRecheckOwn a base outcome other) := by
  unfold onRecheckOwn
  split
  · exact ⟨rfl, rfl, trivial⟩
  · split <;> exact ⟨rfl, rfl, trivial⟩

theorem onOwn_quiet (a : ScenarioTurn) (base : Cell) : Quiet s (s.onOwn a base) := by
  unfold onOwn
  split
  · exact fail_quiet _
  · exact ⟨rfl, rfl, trivial⟩

theorem onCompensate_quiet (a : ScenarioTurn) (base own : Cell) : Quiet s (s.onCompensate a base own) := by
  unfold onCompensate
  split
  · exact fail_quiet _
  · exact ⟨rfl, rfl, trivial⟩

theorem onOtherGeneration_quiet (a : ScenarioTurn) (outcome : DatagramOutcome) :
    Quiet s (s.onOtherGeneration a outcome) := by
  unfold onOtherGeneration
  split
  · exact fail_quiet _
  · exact ⟨rfl, rfl, ownGeneration_entryOf _ _ _ _, rfl⟩

theorem onSnapshot_quiet (a : ScenarioTurn) : Quiet s (s.onSnapshot a) := by
  unfold onSnapshot
  split
  · split
    · exact fail_quiet _
    · exact ⟨rfl, rfl, trivial⟩
  · exact fail_quiet _

theorem onPublish_quiet (a : ScenarioTurn) (plan : FaultPlan) (expected other : Nat) :
    Quiet s (s.onPublish scenario runId a plan expected other) := by
  unfold onPublish
  split
  · exact fail_quiet _
  · exact ⟨rfl, rfl, trivial⟩

theorem onCount_quiet (a : ScenarioTurn) (created other : Nat) : Quiet s (s.onCount a created other) :=
  ⟨rfl, rfl, ownGeneration_entryOf _ _ _ _⟩

/-- Only the last section of an event appends its entry. -/
theorem onCall_quiet (h : s.Assembled)
    (hphase : ∀ a entry created outcome, s.phase ≠ .appending a entry created outcome) :
    Quiet s (s.onCall scenario runId) := by
  unfold onCall
  cases hat : s.phase with
  | readingBase a => exact onBase_quiet h a
  | readingOther a base replacement => exact onOther_quiet a base replacement
  | publishingDatagram a base plan => exact onPublishDatagram_quiet a base plan
  | countingDatagram a base created => exact onCountDatagram_quiet a base created
  | recheckingOther a base outcome => exact onRecheckOther_quiet a base outcome
  | recheckingOwn a base outcome other => exact onRecheckOwn_quiet a base outcome other
  | readingOwn a base => exact onOwn_quiet a base
  | compensating a base own => exact onCompensate_quiet a base own
  | countingCompensation a => exact ⟨rfl, rfl, trivial⟩
  | readingOtherGeneration a outcome => exact onOtherGeneration_quiet a outcome
  | snapshotting a => exact onSnapshot_quiet a
  | publishing a plan expected other => exact onPublish_quiet a plan expected other
  | counting a created other => exact onCount_quiet a created other
  | appending a entry created outcome => exact absurd hat (hphase a entry created outcome)
  | sleeping index events => exact ⟨rfl, rfl, h⟩
  | finished => exact ⟨rfl, rfl, h⟩

theorem Quiet.truthful_iff {s' : TrailRun} (h : Quiet s s') : s'.Truthful ↔ s.Truthful := by
  unfold Truthful
  rw [h.events, h.created]

theorem step_quiet (h : s.Assembled) {op : Op}
    (hphase : op = .call → ∀ a entry created outcome, s.phase ≠ .appending a entry created outcome) :
    Quiet s (s.step scenario runId op) := by
  cases op with
  | due => exact onDue_quiet h
  | cancelled => exact onCancelled_quiet h
  | call => exact onCall_quiet h (hphase rfl)
  | publish | count | delete | create => exact ⟨rfl, rfl, h⟩

/-- The section that appends an entry. -/
theorem step_appends {a : ScenarioTurn} {entry : ScenarioEventResult} {created : Nat} {outcome : Option DatagramOutcome}
    (hphase : s.phase = .appending a entry created outcome) :
    (s.step scenario runId .call).record.events = s.record.events ++ [entry] ∧
      (s.step scenario runId .call).created = s.created ++ [created] ∧ (s.step scenario runId .call).Assembled := by
  have hstep : s.step scenario runId .call = s.onAppend a entry created := by simp only [step, onCall, hphase]
  have hnext := next_quiet (s := { s with record := s.record.addEvent entry, created := s.created ++ [created] })
    (a.index + 1) a.rest
  rw [hstep]
  exact ⟨hnext.events, hnext.created, hnext.assembled⟩

theorem step_assembled (h : s.Assembled) (op : Op) : (s.step scenario runId op).Assembled := by
  by_cases happending : op = .call ∧ ∃ a entry created outcome, s.phase = .appending a entry created outcome
  · obtain ⟨rfl, a, entry, created, outcome, hphase⟩ := happending
    exact (step_appends hphase).2.2
  · refine (step_quiet h ?_).assembled
    intro hop a entry created outcome hphase
    exact happending ⟨hop, a, entry, created, outcome, hphase⟩

/-- An entry is right exactly if a datagram event's counter coincides. -/
theorem entry_iff_coincides (h : s.Assembled) {a : ScenarioTurn} {entry : ScenarioEventResult} {created : Nat}
    {outcome : Option DatagramOutcome} (hphase : s.phase = .appending a entry created outcome) :
    ownGeneration entry = created ↔ s.Coincides .call := by
  unfold Assembled at h
  simp only [Coincides, hphase] at h ⊢
  cases outcome with
  | none => exact iff_of_true h trivial
  | some outcome =>
    obtain ⟨hentry, hcreated⟩ := h
    rw [hentry, hcreated]
    exact Iff.rfl

theorem step_truthful_iff (h : s.Truthful) (hassembled : s.Assembled) (op : Op) :
    (s.step scenario runId op).Truthful ↔ s.Coincides op := by
  by_cases happending : op = .call ∧ ∃ a entry created outcome, s.phase = .appending a entry created outcome
  · obtain ⟨rfl, a, entry, created, outcome, hphase⟩ := happending
    obtain ⟨hevents, hcreated, -⟩ := @step_appends scenario runId s _ _ _ _ hphase
    unfold Truthful at h ⊢
    rw [hevents, hcreated, List.map_append, h, List.append_right_inj, ← entry_iff_coincides hassembled hphase]
    exact List.singleton_inj
  · have hphase : op = .call → ∀ a entry created outcome, s.phase ≠ .appending a entry created outcome := by
      intro hop a entry created outcome hat
      exact happending ⟨hop, a, entry, created, outcome, hat⟩
    refine iff_of_true ((step_quiet hassembled hphase).truthful_iff.2 h) ?_
    unfold Coincides
    split
    · split
      · next hat => exact absurd hat (hphase rfl _ _ _ _)
      · trivial
    · trivial

theorem start_quiet (policies : ScheduleResource → Option (Nat × TargetPlan × UInt64)) (globalGeneration : Nat) :
    (start scenario policies globalGeneration).Truthful ∧ (start scenario policies globalGeneration).Assembled := by
  unfold start
  exact ⟨(next_quiet 0 scenario.events).truthful_iff.2 rfl, (next_quiet 0 scenario.events).assembled⟩

/-- Whatever else happens to the server, every entry of the trail has the
generation under which its plan was published, in every state of the run, exactly
if every datagram event that is recorded moved the configuration counter to the
new generation of its policy. -/
theorem trail_generations_iff (scenario : Scenario) (runId : UInt64)
    (policies : ScheduleResource → Option (Nat × TargetPlan × UInt64)) (globalGeneration : Nat) (ops : List Op) :
    (∀ pre, pre <+: ops → (run (step scenario runId) (start scenario policies globalGeneration) pre).Truthful) ↔
      Along (step scenario runId) Coincides (start scenario policies globalGeneration) ops :=
  prefixes_iff_along (J := Assembled) (fun _ o h => step_assembled h o) (fun _ o h hj => step_truthful_iff h hj o)
    (start_quiet policies globalGeneration).1 (start_quiet policies globalGeneration).2 ops

/-! ## A server that has done more than publish -/

/-- One event: the upstream plan of a datagram proxy is replaced by the empty one. -/
def clearingScenario : Scenario := ⟨7, [⟨0, .setDatagramPlan "dns" .upstream []⟩]⟩

/-- The proxy is new, on a server whose configuration has changed five times. -/
def newDatagramProxy (r : ScheduleResource) : Option (Nat × TargetPlan × UInt64) :=
  if r.proxy = "dns" ∧ r.transport = .datagram then some (1, .datagram .empty, 0) else none

/-- The plan is published under generation two; the entry says six. -/
theorem datagram_entry_counts_server :
    let s := run (step clearingScenario 1) (start clearingScenario newDatagramProxy 5)
      (.due :: List.replicate 8 .call)
    s.record.status = .completed ∧ s.record.events.map ownGeneration = [6] ∧ s.created = [2] ∧
      (s.target.cells ⟨"dns", .upstream, .datagram⟩).map (·.generation) = some 2 ∧ ¬ s.Truthful := by
  decide

end TrailRun

end Eggchaos
