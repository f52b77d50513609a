import Eggchaos.DriverLemmas
/-!
# The schedule driver over the server's own state

`ControlStateTarget` of `scenario_v2/runtime.rs` lets the driver publish to the
proxies of the server. A stream plan is published in one section of the registry
lock. A datagram plan is published in one section, and its generation is read
back in a second one. Generations belong to a policy, so a proxy that is deleted
and created again starts at generation one.

A step is one section of the run, the preparation included, or an operation of
somebody else. Beside the state stand three things that nothing in the program
reads: who published a plan, which policy a resource has (`object` counts its
creations), and the one that the preparation found (`adopted`).
-/

namespace Eggchaos
open Lib

namespace Target

/-- The policy of a resource is replaced, and the configuration generation moves
on. -/
def put (t : Target) (r : ScheduleResource) (cell : Option Cell) : Target :=
  { t with
    cells := fun r' => if r' = r then cell else t.cells r'
    globalGeneration := t.globalGeneration + 1 }

end Target

/-- `TargetError::missing` of a read. -/
def ScheduleResource.missing (r : ScheduleResource) : TargetError :=
  .missingResource (bounded (DriveState.notFound r))

/-- What a section that publishes comes to. -/
inductive Section where
  | failed (e : TargetError)
  | conflict
  | published (next : Cell)
deriving DecidableEq, Repr

/-- The plan under the next generation, unless the counter is used up. -/
def Cell.successor (cell : Cell) (plan : TargetPlan) (seedNamespace : UInt64) (overflow : String) : Section :=
  if cell.generation = u64Max then .failed (.validation (bounded overflow))
  else .published ⟨cell.generation + 1, plan, seedNamespace, .run⟩

/-- `publish_direction_expected`, with its errors as the target reports them. -/
def publishDirectionExpected (t : Target) (r : ScheduleResource) (plan : FaultPlan) (seedNamespace : UInt64)
    (expected : Nat) : Section :=
  match t.cells r with
  | none => .failed (.missingResource (bounded s!"proxy {r.proxy} not found"))
  | some cell =>
    match plan.validate with
    | .error e => .failed (.validation (bounded e.message))
    | .ok () =>
      if cell.generation ≠ expected then .conflict
      else cell.successor (.stream plan) seedNamespace ValidationError.generationOverflow.message

/-- `publish_datagram_plan`, the first section of a datagram publication. -/
def publishDatagramPlan (t : Target) (r : ScheduleResource) (plan : DatagramPlan) (seedNamespace : UInt64)
    (expected : Nat) : Section :=
  match plan.validate with
  | .error e => .failed (.validation (bounded e))
  | .ok () =>
    match t.cells r with
    | none => .failed (.missingResource (bounded s!"proxy {r.proxy} not found"))
    | some cell =>
      if cell.generation ≠ expected then .conflict
      else cell.successor (.datagram plan) seedNamespace "generation overflow"

/-- `ControlStateTarget::publish` up to the end of its first section. -/
def publishSection (t : Target) (r : ScheduleResource) (expected : Nat) (plan : TargetPlan) (seedNamespace : UInt64) :
    Section :=
  match plan, r.transport with
  | .stream plan, .stream => publishDirectionExpected t r plan seedNamespace expected
  | .datagram plan, .datagram => publishDatagramPlan t r plan seedNamespace expected
  | _, _ => .failed (.unsupportedCapability "plan/transport mismatch")

/-- What a publication still has to do after its first section. -/
inductive Pending where
  /-- Read back the generation of the datagram plan published as `created`. -/
  | receipt (created : Nat)
  /-- Read the generation that a conflict is reported with. -/
  | conflict
deriving DecidableEq, Repr

/-- A receipt as the driver gets it, and the generation its publication made. -/
structure Receipt where
  generation : Nat
  created : Nat
deriving DecidableEq, Repr

structure ServerRun where
  drive : DriveState
  /-- The events whose resources are not snapshotted yet, during preparation. -/
  preparing : Option (List CompiledEventV2)
  pending : Option Pending
  object : ScheduleResource → Nat
  adopted : ScheduleResource → Option Nat

/-- The publication the driver awaits. -/
structure PublishRequest where
  resource : ScheduleResource
  plan : TargetPlan
  expected : Nat
  seedNamespace : UInt64
deriving DecidableEq, Repr

namespace DriveState

/-- A publication is answered, for an event or for the cleanup. -/
def onAnswer (d : Drive) (s : DriveState) (answer : Except TargetError Receipt) : DriveState :=
  match s.phase, answer with
  | .publishing a _ _, .error e => s.fail d (a.event.action.name ++ " publish failed: " ++ e.message)
  | .publishing a plan _, .ok receipt =>
    let r := a.event.action.resource
    let s := { s with
      owned := s.owned.update r.key r receipt.generation
      own := fun r' => if r' = r then some plan else s.own r' }
    match r.transport, r.direction with
    | .stream, _ => { s with phase := .readingSibling a receipt.generation }
    | .datagram, .upstream => s.record d a receipt.generation 0
    | .datagram, .downstream => s.record d a 0 receipt.generation
  | .republishing entry _ todo, .error _ => s.noteCleanup entry.resource .conflict todo
  | .republishing entry _ todo, .ok _ =>
    { s with own := fun r => if r = entry.resource then some entry.initialPlan else s.own r
      }.noteCleanup entry.resource .restored todo
  | _, _ => s

/-- The publication that is awaited in this phase. -/
def request (d : Drive) (s : DriveState) : Option PublishRequest :=
  match s.phase with
  | .publishing a plan expected =>
    some ⟨a.event.action.resource, plan, expected, eventNamespace d a.event.compiledIndex⟩
  | .republishing entry current _ => some ⟨entry.resource, entry.initialPlan, current, cleanupNamespace d⟩
  | _ => none

/-- The resource that is read in this phase. -/
def reads (s : DriveState) : Option ScheduleResource :=
  match s.phase with
  | .snapshotting a | .readingGeneration a _ => some a.event.action.resource
  | .readingSibling a _ => some (sibling a.event.action.resource)
  | .restoring entry _ => some entry.resource
  | _ => none

end DriveState

namespace ServerRun

variable (d : Drive) (s : ServerRun)

/-- The preparation is over if no resource is left, and the run begins. -/
def settlePreparation (events : List CompiledEventV2) : ServerRun :=
  match events.dropWhile fun event => (s.drive.owned.get event.action.resource.key).isSome with
  | [] => { s with preparing := none, drive := .start d s.drive.target s.drive.owned }
  | event :: rest => { s with preparing := some (event :: rest) }

/-- The snapshot of the next resource to prepare arrives. -/
def onPrepare : List CompiledEventV2 → ServerRun
  | [] => s.settlePreparation d []
  | event :: rest =>
    let r := event.action.resource
    match s.drive.target.cells r with
    | none => { s with
        preparing := none
        drive := { s.drive with phase := .finished, status := .failed, failure := some r.missing.message } }
    | some cell =>
      { s with
        drive := { s.drive with owned := s.drive.owned.insert r.key ⟨r, cell.generation, cell.plan⟩ }
        adopted := fun r' => if r' = r then some (s.object r) else s.adopted r'
        }.settlePreparation d rest

/-- The first section of a publication. A stream plan's receipt is the published
generation. -/
def onSection (request : PublishRequest) : ServerRun :=
  match publishSection s.drive.target request.resource request.expected request.plan request.seedNamespace with
  | .failed e => { s with drive := s.drive.onAnswer d (.error e) }
  | .conflict => { s with pending := some .conflict }
  | .published next =>
    let drive := { s.drive with target := s.drive.target.put request.resource (some next) }
    match request.resource.transport with
    | .stream => { s with drive := drive.onAnswer d (.ok ⟨next.generation, next.generation⟩) }
    | .datagram => { s with drive, pending := some (.receipt next.generation) }

/-- The answer after the second section of a publication. -/
def secondAnswer (request : PublishRequest) : Pending → Except TargetError Receipt
  | .receipt created =>
    match s.drive.target.cells request.resource with
    | none => .error (.missingResource (bounded ("proxy not found: " ++ request.resource.proxy)))
    | some cell => .ok ⟨cell.generation, created⟩
  | .conflict =>
    .error (.generationConflict request.expected
      (((s.drive.target.cells request.resource).map (·.generation)).getD request.expected))

/-- The section that the run awaits is over. -/
def onCall : ServerRun :=
  match s.preparing, s.drive.request d, s.pending with
  | some events, _, _ => s.onPrepare d events
  | none, some request, none => s.onSection d request
  | none, some request, some pending =>
    { s with pending := none, drive := s.drive.onAnswer d (s.secondAnswer request pending) }
  | none, none, _ =>
    let refused := s.drive.reads.bind fun r => if (s.drive.target.cells r).isNone then some r.missing else none
    { s with drive := s.drive.onCall d refused 0 }

inductive Op where
  | due (now : Nat)
  | cancelled
  /-- A section of the run. -/
  | call
  /-- Somebody else publishes a plan: a fault operation, a publication, a reset. -/
  | publish (r : ScheduleResource) (plan : TargetPlan) (seedNamespace : UInt64)
  | delete (proxy : String) (transport : ScheduleTransport)
  | create (proxy : String) (transport : ScheduleTransport) (plans : Direction → TargetPlan) (seedNamespace : UInt64)

/-- Who has published, for an operation of somebody else: after the preparation
of the resource it is an external plan. -/
def origin (r : ScheduleResource) : Origin := if (s.adopted r).isSome then .external else .initial

/-- A resource belongs to the proxy of this name and transport. -/
def belongs (proxy : String) (transport : ScheduleTransport) (r : ScheduleResource) : Bool :=
  r.proxy = proxy && r.transport = transport

/-- An operation on the target that is not the run's. -/
def external (s : ServerRun) : Op → ServerRun
  | .publish r plan seedNamespace =>
    match s.drive.target.cells r with
    | none => s
    | some cell =>
      if cell.generation = u64Max then s
      else
        let next : Cell := ⟨cell.generation + 1, plan, seedNamespace, s.origin r⟩
        { s with drive := { s.drive with target := s.drive.target.put r (some next) } }
  | .delete proxy transport =>
    { s with drive := { s.drive with target := { s.drive.target with
      cells := fun r => if belongs proxy transport r then none else s.drive.target.cells r
      globalGeneration := s.drive.target.globalGeneration + 1 } } }
  | .create proxy transport plans seedNamespace =>
    if (s.drive.target.cells ⟨proxy, .upstream, transport⟩).isSome then s
    else
      { s with
        drive := { s.drive with target := { s.drive.target with
          cells := fun r =>
            if belongs proxy transport r then some ⟨1, plans r.direction, seedNamespace, s.origin r⟩
            else s.drive.target.cells r
          globalGeneration := s.drive.target.globalGeneration + 1 } }
        object := fun r => if belongs proxy transport r then s.object r + 1 else s.object r }
  | _ => s

def step : Op → ServerRun
  | .due now => match s.preparing with
    | some _ => s
    | none => { s with drive := s.drive.step d (.due now) }
  | .cancelled => match s.preparing with
    | some _ => s
    | none => { s with drive := s.drive.step d .cancelled }
  | .call => s.onCall d
  | op => s.external op

/-- The run is admitted; what is there was published before. -/
def start (policies : ScheduleResource → Option (Nat × TargetPlan × UInt64)) (globalGeneration : Nat) : ServerRun :=
  { drive := {
      target := .before policies globalGeneration
      owned := []
      phase := .waiting []
      status := .running
      failure := none
      applied := 0
      events := []
      cleanup := []
      own := fun _ => none }
    preparing := none
    pending := none
    object := fun _ => 0
    adopted := fun _ => none : ServerRun }.settlePreparation d d.compiled.events

end ServerRun

end Eggchaos
