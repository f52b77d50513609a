import Eggchaos.Schedule
import Eggchaos.Lib.Runs
/-!
# The schedule driver

`driver.rs` plays a compiled schedule through a `PolicyTarget`, whose calls it
awaits one at a time; between two calls anybody else may publish to the same
resources. So a run is a state machine here: a step is one target call of the
driver with the local work up to its next await, the end of a deadline wait, a
cancellation observed while waiting, or an operation of somebody else.

The target is the contract of `target.rs`: `publish` is one atomic compare of
the generation and set, the new generation is one never used for the resource
before, and any call may be refused with an error of the target's own. A cell
also says who published it, which nothing in the driver reads.
-/

namespace Eggchaos
open Lib

inductive ScheduleTransport where
  | stream
  | datagram
deriving DecidableEq, Repr

structure ScheduleResource where
  proxy : String
  direction : Direction
  transport : ScheduleTransport
deriving DecidableEq, Repr

inductive TargetPlan where
  | stream (plan : FaultPlan)
  | datagram (plan : DatagramPlan)
deriving DecidableEq, Repr

/-- The plan without the faults of this id. -/
def TargetPlan.without (id : String) : TargetPlan → TargetPlan
  | .stream plan => .stream (plan.withoutFault id)
  | .datagram plan => .datagram ⟨plan.faults.filter (·.id.value ≠ id)⟩

inductive TargetError where
  | missingResource (detail : String)
  | unsupportedCapability (detail : String)
  | generationConflict (expected found : Nat)
  | validation (detail : String)
  | internal (detail : String)
deriving DecidableEq, Repr

/-- The `Display` text of a target error. -/
def TargetError.message : TargetError → String
  | .missingResource detail => "resource not found: " ++ detail
  | .unsupportedCapability detail => "unsupported capability: " ++ detail
  | .generationConflict expected found => s!"generation conflict: expected {expected}, found {found}"
  | .validation detail => "invalid plan: " ++ detail
  | .internal detail => "target error: " ++ detail

/-! ## The target -/

/-- Who published the plan of a resource. -/
inductive Origin where
  | initial
  | run
  | external
deriving DecidableEq, Repr

structure Cell where
  generation : Nat
  plan : TargetPlan
  seedNamespace : UInt64
  origin : Origin
deriving DecidableEq, Repr

/-- The resources by identity, the highest generation each has had, and the
target-wide configuration generation. -/
structure Target where
  cells : ScheduleResource → Option Cell
  top : ScheduleResource → Nat
  globalGeneration : Nat

namespace Target

/-- Before the run: what is there was published before it. -/
def before (policies : ScheduleResource → Option (Nat × TargetPlan × UInt64)) (globalGeneration : Nat) : Target where
  cells r := (policies r).map fun p => ⟨p.1, p.2.1, p.2.2, .initial⟩
  top r := ((policies r).map (·.1)).getD 0
  globalGeneration

/-- Install a plan under a generation above all earlier ones. -/
def install (t : Target) (r : ScheduleResource) (plan : TargetPlan) (seedNamespace : UInt64) (grown : Nat)
    (origin : Origin) : Target :=
  { t with
    cells := fun r' => if r' = r then some ⟨t.top r + 1 + grown, plan, seedNamespace, origin⟩ else t.cells r'
    top := fun r' => if r' = r then t.top r + 1 + grown else t.top r' }

def remove (t : Target) (r : ScheduleResource) : Target :=
  { t with cells := fun r' => if r' = r then none else t.cells r' }

/-- `snapshot` and `current_generation`, unless refused. -/
def read (t : Target) (refused : Option TargetError) (r : ScheduleResource) : Except TargetError Cell :=
  match refused, t.cells r with
  | some e, _ => .error e
  | none, none => .error (.missingResource r.proxy)
  | none, some cell => .ok cell

/-- `publish`: the new generation, if the current one is the expected one. -/
def publish (t : Target) (refused : Option TargetError) (r : ScheduleResource) (expected : Nat) (plan : TargetPlan)
    (seedNamespace : UInt64) (grown : Nat) : Except TargetError Nat × Target :=
  match t.read refused r with
  | .error e => (.error e, t)
  | .ok cell =>
    if cell.generation ≠ expected then (.error (.generationConflict expected cell.generation), t)
    else (.ok (t.top r + 1 + grown), t.install r plan seedNamespace grown .run)

end Target

/-! ## Preparation -/

def Direction.debug : Direction → String
  | .upstream => "Upstream"
  | .downstream => "Downstream"

def ScheduleTransport.debug : ScheduleTransport → String
  | .stream => "Stream"
  | .datagram => "Datagram"

/-- `resource_key`. -/
def ScheduleResource.key (r : ScheduleResource) : String :=
  r.proxy ++ "|" ++ r.direction.debug ++ "|" ++ r.transport.debug

/-- `action_resource`. -/
def ScenarioAction.resource : ScenarioAction → ScheduleResource
  | .setPlan proxy direction _ | .removeFault proxy direction _ => ⟨proxy, direction, .stream⟩
  | .setDatagramPlan proxy direction _ | .removeDatagramFault proxy direction _ => ⟨proxy, direction, .datagram⟩

/-- The name of an action in the evidence. -/
def ScenarioAction.name : ScenarioAction → String
  | .setPlan _ _ _ => "set-plan"
  | .removeFault _ _ _ => "remove-fault"
  | .setDatagramPlan _ _ _ => "set-datagram-plan"
  | .removeDatagramFault _ _ _ => "remove-datagram-fault"

structure OwnedResource where
  resource : ScheduleResource
  lastOwnedGeneration : Nat
  initialPlan : TargetPlan
deriving DecidableEq, Repr

/-- A `BTreeMap<String, OwnedResource>`: the entries in key order. -/
abbrev Owned := List (String × OwnedResource)

namespace Owned

def get (owned : Owned) (key : String) : Option OwnedResource := (owned.find? (·.1 = key)).map (·.2)

def insert (key : String) (entry : OwnedResource) : Owned → Owned
  | [] => [(key, entry)]
  | (k, o) :: rest => if k < key then (k, o) :: insert key entry rest else (key, entry) :: (k, o) :: rest

/-- The entry under this key moves on to a new owned generation. -/
def moved (key : String) (generation : Nat) (p : String × OwnedResource) : String × OwnedResource :=
  if p.1 = key then (p.1, { p.2 with lastOwnedGeneration := generation }) else p

/-- `update_owned`; an entry that preparation did not make has an empty initial
plan. -/
def update (owned : Owned) (key : String) (resource : ScheduleResource) (generation : Nat) : Owned :=
  if (owned.get key).isSome then owned.map (moved key generation)
  else
    owned.insert key ⟨resource, generation, match resource.transport with
      | .stream => .stream .empty
      | .datagram => .datagram .empty⟩

end Owned

structure TargetCapabilities where
  stream : Bool
  datagram : Bool
deriving DecidableEq, Repr

def TargetCapabilities.supports (c : TargetCapabilities) : ScheduleTransport → Bool
  | .stream => c.stream
  | .datagram => c.datagram

/-- The longest beginning of at most `n` bytes. -/
def boundedChars : Nat → List Char → List Char
  | _, [] => []
  | n, c :: cs => if c.utf8Size ≤ n then c :: boundedChars (n - c.utf8Size) cs else []

/-- `TargetError::bounded`. -/
def bounded (detail : String) : String := String.ofList (boundedChars 256 detail.toList)

/-- The refusal of a resource whose transport the target does not support. -/
def ScheduleResource.unsupported (r : ScheduleResource) : TargetError :=
  .unsupportedCapability (bounded (match r.transport with
    | .stream => "stream resource '" ++ bounded r.proxy ++ "' requires stream support"
    | .datagram => "datagram resource '" ++ bounded r.proxy ++ "' requires datagram support"))

/-- The loop of `prepare_initial` over the events. -/
def prepareFrom (capabilities : TargetCapabilities) (t : Target) : Owned → List CompiledEventV2 → Except TargetError Owned
  | owned, [] => .ok owned
  | owned, event :: events =>
    let r := event.action.resource
    if (owned.get r.key).isSome then prepareFrom capabilities t owned events
    else if !capabilities.supports r.transport then .error r.unsupported
    else match t.read none r with
      | .error e => .error e
      | .ok cell => prepareFrom capabilities t (owned.insert r.key ⟨r, cell.generation, cell.plan⟩) events

/-- `prepare_initial`: the state of every resource the schedule touches. -/
def prepareInitial (capabilities : TargetCapabilities) (t : Target) (compiled : CompiledScenarioV2) :
    Except TargetError Owned :=
  prepareFrom capabilities t [] compiled.events

/-! ## The run -/

structure ScheduleEventResult where
  compiledIndex : Nat
  phase : CompiledPhaseIdentity
  scheduledOffsetNs : Nat
  appliedElapsedNs : Nat
  lateByNs : Nat
  action : String
  resource : ScheduleResource
  upstreamGeneration : Nat
  downstreamGeneration : Nat
  globalGeneration : Nat
deriving DecidableEq, Repr

inductive CleanupResourceOutcome where
  | restored
  | conflict
  | missing
  | notRequested
deriving DecidableEq, Repr

structure CleanupResourceRecord where
  resource : ScheduleResource
  outcome : CleanupResourceOutcome
deriving DecidableEq, Repr

/-- The event being applied, with its elapsed time, and those after it. -/
structure Applying where
  event : CompiledEventV2
  appliedElapsedNs : Nat
  rest : List CompiledEventV2
deriving DecidableEq, Repr

/-- What the driver awaits. -/
inductive DrivePhase where
  /-- The deadline of the first of these events. -/
  | waiting (events : List CompiledEventV2)
  /-- The snapshot a removal starts from. -/
  | snapshotting (a : Applying)
  /-- The live generation a publication of this plan will expect. -/
  | readingGeneration (a : Applying) (plan : TargetPlan)
  | publishing (a : Applying) (plan : TargetPlan) (expected : Nat)
  /-- The other direction's generation, after publishing this one. -/
  | readingSibling (a : Applying) (generation : Nat)
  /-- The generation of the first entry to restore. -/
  | restoring (entry : OwnedResource) (todo : List OwnedResource)
  | republishing (entry : OwnedResource) (current : Nat) (todo : List OwnedResource)
  | finished
deriving DecidableEq, Repr

inductive ScheduleRunStatus where
  | running
  | cancelled
  | completed
  | failed
deriving DecidableEq, Repr

/-- The arguments of `drive`, and the fingerprint the cleanup computes. -/
structure Drive where
  compiled : CompiledScenarioV2
  fingerprint : List UInt8
  compiledFingerprint : List UInt8
  epoch : Nat

/-- A run in progress and its target. `own` is the last plan that the run
published to a resource, or the one it found there. -/
structure DriveState where
  target : Target
  owned : Owned
  phase : DrivePhase
  status : ScheduleRunStatus
  failure : Option String
  applied : Nat
  events : List ScheduleEventResult
  cleanup : List CleanupResourceRecord
  own : ScheduleResource → Option TargetPlan

namespace DriveState

variable (d : Drive) (s : DriveState)

/-- The seed namespace of the event with this index. -/
def eventNamespace (index : Nat) : UInt64 :=
  deriveSchedulePolicySeed d.compiled.seed d.compiled.executionKey d.fingerprint index.toUInt64

/-- The namespace of restores: one past the last event. -/
def cleanupNamespace : UInt64 :=
  deriveSchedulePolicySeed d.compiled.seed d.compiled.executionKey d.compiledFingerprint
    d.compiled.events.length.toUInt64

def strict : Bool := d.compiled.isolation = .strict

/-- `run_cleanup` from the entries still to restore. -/
def restoreNext (s : DriveState) : List OwnedResource → DriveState
  | [] => { s with phase := .finished }
  | entry :: todo => { s with phase := .restoring entry todo }

/-- The events are over: `leave` records every resource and publishes nothing. -/
def enterCleanup (status : ScheduleRunStatus) : DriveState :=
  let s := { s with status }
  match d.compiled.cleanup with
  | .leave => { s with
      phase := .finished
      cleanup := s.owned.map fun (_, entry) => ⟨entry.resource, .notRequested⟩ }
  | .restoreInitial => s.restoreNext (s.owned.map (·.2))

/-- An event failed with this reason. -/
def fail (reason : String) : DriveState := { s with failure := some reason }.enterCleanup d .failed

/-- Wait for the next event, or clean up after the last one. -/
def next (events : List CompiledEventV2) : DriveState :=
  match events with
  | [] => s.enterCleanup d .completed
  | _ :: _ => { s with phase := .waiting events }

/-- The failure text of a resource that is not there. -/
def notFound (r : ScheduleResource) : String :=
  match r.transport with
  | .stream => s!"stream proxy {r.proxy} not found"
  | .datagram => s!"datagram proxy {r.proxy} not found"

/-- `expected_generation`: a strict run expects the generation it owns, without
asking the target. -/
def expect (a : Applying) (plan : TargetPlan) : DriveState :=
  match strict d, s.owned.get a.event.action.resource.key with
  | true, some entry => { s with phase := .publishing a plan entry.lastOwnedGeneration }
  | _, _ => { s with phase := .readingGeneration a plan }

/-- `apply_event` up to its first await. -/
def begin (now : Nat) (event : CompiledEventV2) (rest : List CompiledEventV2) : DriveState :=
  let a : Applying := ⟨event, min (now - d.epoch) u64Max, rest⟩
  match event.action with
  | .setPlan _ _ faults =>
    match FaultPlan.new faults with
    | .error e => s.fail d ("set-plan invalid: " ++ e.message)
    | .ok plan => s.expect d a (.stream plan)
  | .setDatagramPlan _ _ faults =>
    match DatagramPlan.new faults with
    | .error e => s.fail d ("set-datagram-plan invalid: " ++ e)
    | .ok plan => s.expect d a (.datagram plan)
  | .removeFault _ _ _ | .removeDatagramFault _ _ _ => { s with phase := .snapshotting a }

/-- The plan a removal makes of the plan it found. -/
def removal (action : ScenarioAction) (found : TargetPlan) : Except String TargetPlan :=
  match action, found with
  | .removeFault proxy _ id, .stream base =>
    match base.get id with
    | none => .error s!"fault {id} not present on {proxy}"
    | some _ => .ok (.stream (base.withoutFault id))
  | .removeDatagramFault proxy _ id, .datagram current =>
    if !current.faults.any (·.id.value = id) then .error s!"datagram fault {id} not present on {proxy}"
    else match DatagramPlan.new (current.faults.filter (·.id.value ≠ id)) with
      | .error e => .error ("datagram plan invalid: " ++ e)
      | .ok plan => .ok (.datagram plan)
  | action, _ => .error (notFound action.resource)

/-- The snapshot of a removal arrives. A live run expects its generation. -/
def onSnapshot (a : Applying) (refused : Option TargetError) : DriveState :=
  match s.target.read refused a.event.action.resource with
  | .error _ => s.fail d (notFound a.event.action.resource)
  | .ok cell =>
    match removal a.event.action cell.plan with
    | .error reason => s.fail d reason
    | .ok plan => if strict d then s.expect d a plan else { s with phase := .publishing a plan cell.generation }

def onGeneration (a : Applying) (plan : TargetPlan) (refused : Option TargetError) : DriveState :=
  match s.target.read refused a.event.action.resource with
  | .error _ => s.fail d (notFound a.event.action.resource)
  | .ok cell => { s with phase := .publishing a plan cell.generation }

/-- The event is done: its evidence goes to the sink. -/
def record (a : Applying) (upstreamGeneration downstreamGeneration : Nat) : DriveState :=
  let result : ScheduleEventResult := {
    compiledIndex := a.event.compiledIndex
    phase := a.event.phase
    scheduledOffsetNs := a.event.offsetNs
    appliedElapsedNs := a.appliedElapsedNs
    lateByNs := a.appliedElapsedNs - a.event.offsetNs
    action := a.event.action.name
    resource := a.event.action.resource
    upstreamGeneration
    downstreamGeneration
    globalGeneration := s.target.globalGeneration }
  { s with applied := s.applied + 1, events := s.events ++ [result] }.next d a.rest

/-- The publication of an event is answered. -/
def onPublish (a : Applying) (plan : TargetPlan) (expected : Nat) (refused : Option TargetError) (grown : Nat) :
    DriveState :=
  let r := a.event.action.resource
  match s.target.publish refused r expected plan (eventNamespace d a.event.compiledIndex) grown with
  | (.error e, target) => { s with target }.fail d (a.event.action.name ++ " publish failed: " ++ e.message)
  | (.ok generation, target) =>
    let s := { s with
      target
      owned := s.owned.update r.key r generation
      own := fun r' => if r' = r then some plan else s.own r' }
    match r.transport, r.direction with
    | .stream, _ => { s with phase := .readingSibling a generation }
    | .datagram, .upstream => s.record d a generation 0
    | .datagram, .downstream => s.record d a 0 generation

/-- The same resource in the other direction. -/
def sibling (r : ScheduleResource) : ScheduleResource :=
  { r with direction := match r.direction with
    | .upstream => .downstream
    | .downstream => .upstream }

/-- `directional_gens` is answered. -/
def onSibling (a : Applying) (generation : Nat) (refused : Option TargetError) : DriveState :=
  match s.target.read refused (sibling a.event.action.resource) with
  | .error e => s.fail d ("generation evidence failed: " ++ e.message)
  | .ok cell =>
    match a.event.action.resource.direction with
    | .upstream => s.record d a generation cell.generation
    | .downstream => s.record d a cell.generation generation

/-- The cleanup of one resource is decided. -/
def noteCleanup (r : ScheduleResource) (outcome : CleanupResourceOutcome) (todo : List OwnedResource) : DriveState :=
  let record : CleanupResourceRecord := ⟨r, outcome⟩
  { s with cleanup := s.cleanup ++ [record] }.restoreNext todo

/-- `restore_target` up to its publication. -/
def onRestore (entry : OwnedResource) (todo : List OwnedResource) (refused : Option TargetError) : DriveState :=
  match s.target.read refused entry.resource with
  | .error _ => s.noteCleanup entry.resource .missing todo
  | .ok cell =>
    if cell.generation ≠ entry.lastOwnedGeneration then s.noteCleanup entry.resource .conflict todo
    else { s with phase := .republishing entry cell.generation todo }

/-- The publication of `restore_target` is answered. -/
def onRepublish (entry : OwnedResource) (current : Nat) (todo : List OwnedResource) (refused : Option TargetError)
    (grown : Nat) : DriveState :=
  match s.target.publish refused entry.resource current entry.initialPlan (cleanupNamespace d) grown with
  | (.error _, target) => { s with target }.noteCleanup entry.resource .conflict todo
  | (.ok _, target) =>
    { s with
      target
      own := fun r => if r = entry.resource then some entry.initialPlan else s.own r
      }.noteCleanup entry.resource .restored todo

/-- The target call the driver awaits is answered. -/
def onCall (refused : Option TargetError) (grown : Nat) : DriveState :=
  match s.phase with
  | .waiting _ | .finished => s
  | .snapshotting a => s.onSnapshot d a refused
  | .readingGeneration a plan => s.onGeneration d a plan refused
  | .publishing a plan expected => s.onPublish d a plan expected refused grown
  | .readingSibling a generation => s.onSibling d a generation refused
  | .restoring entry todo => s.onRestore entry todo refused
  | .republishing entry current todo => s.onRepublish d entry current todo refused grown

inductive Op where
  /-- The wait for a deadline that can be represented ends at `now`. -/
  | due (now : Nat)
  /-- The token is found cancelled before or during a wait. -/
  | cancelled
  /-- The awaited target call is answered, or refused by the target. -/
  | call (refused : Option TargetError) (grown : Nat)
  /-- Somebody else publishes. -/
  | external (r : ScheduleResource) (plan : TargetPlan) (seedNamespace : UInt64) (grown : Nat)
  | remove (r : ScheduleResource)
  | reconfigured (globalGeneration : Nat)

/-- The step is one of the driver's own. -/
def Op.isRun : Op → Bool
  | .due _ | .cancelled | .call _ _ => true
  | .external _ _ _ _ | .remove _ | .reconfigured _ => false

def step : Op → DriveState
  | .due now =>
    match s.phase with
    | .waiting (event :: rest) =>
      if d.epoch + event.offsetNs ≤ maxInstant ∧ d.epoch + event.offsetNs ≤ now then s.begin d now event rest else s
    | _ => s
  | .cancelled =>
    match s.phase with
    | .waiting (_ :: _) => s.enterCleanup d .cancelled
    | _ => s
  | .call refused grown => s.onCall d refused grown
  | .external r plan seedNamespace grown => { s with target := s.target.install r plan seedNamespace grown .external }
  | .remove r => { s with target := s.target.remove r }
  | .reconfigured globalGeneration => { s with target := { s.target with globalGeneration } }

/-- The run right after its preparation. -/
def start (t : Target) (owned : Owned) : DriveState :=
  { target := t
    owned
    phase := .waiting []
    status := .running
    failure := none
    applied := 0
    events := []
    cleanup := []
    own := fun r => (t.cells r).map (·.plan) : DriveState }.next d d.compiled.events

end DriveState

end Eggchaos
