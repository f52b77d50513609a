import Eggchaos.Rng
import Eggchaos.TokenBucket
import Eggchaos.Lib.Io
/-!
# The direction engine

`DirectionEngine` of `engine.rs`: the bounded queue, counters, timers and
per-connection fault state of one stream direction, as state passing. A call
that reads the clock takes the `Clock` and returns what is left of it; a call
that drives the inner writer takes and returns the writer.

The segment loop of `accept` and of `push_preserve_run` is the same code in the
source and `pushLoop` here. Loops carry fuel: a segment takes at least one byte
and an inner write that goes on takes at least one, so the fuel each loop is
started with never runs out (`EngineLemmas.lean`).
-/

namespace Eggchaos
open Lib

inductive TerminationRequest where
  | graceful
  | hardReset
deriving DecidableEq, Repr

structure TerminationInfo where
  request : TerminationRequest
  direction : Direction
  faultId : Option String
deriving DecidableEq, Repr

/-- The durable signal an engine shares with its runtime: what is published
first stays. -/
structure TerminationHandle where
  slot : Option TerminationInfo
deriving DecidableEq, Repr

namespace TerminationHandle

def new : TerminationHandle := ⟨none⟩

def get (h : TerminationHandle) : Option TerminationInfo := h.slot

def publish (h : TerminationHandle) (info : TerminationInfo) : TerminationHandle :=
  match h.slot with
  | none => ⟨some info⟩
  | some _ => h

end TerminationHandle

/-- The seven activation counters, by `FaultKind.typeIndex`. -/
abbrev Activations := Fin 7 → Nat

/-- Count one activation for every engaged stage. -/
def Activations.bump (a : Activations) (engaged : Fin 7 → Bool) : Activations :=
  fun i => if engaged i then satAdd (a i) 1 else a i

/-- Count one activation of a single stage. -/
def Activations.bumpAt (a : Activations) (slot : Fin 7) : Activations := a.bump (· = slot)

structure EngineEvidence where
  bytesAccepted : Nat := 0
  bytesForwarded : Nat := 0
  bytesDiscarded : Nat := 0
  segments : Nat := 0
  slices : Nat := 0
  bufferedBytes : Nat := 0
  highWaterBytes : Nat := 0
  injectedDelayMs : Nat := 0
  throttledDelayMs : Nat := 0
  termination : Option TerminationRequest := none
  activations : Activations := fun _ => 0
  streamLossChunksEvaluated : Nat := 0
  streamLossChunksDropped : Nat := 0
  streamLossBytesDiscarded : Nat := 0

/-- A queued segment and the instant it may leave. -/
structure Queued where
  bytes : List Byte
  release : Nat
deriving DecidableEq, Repr

/-! ## Timers -/

/-- The cached `Sleep` (the instant it fires at) and the deadline it was armed
for; the source sets and clears the two together. -/
structure ArmedTimer where
  armed : Option (Nat × Nat)
deriving DecidableEq, Repr

namespace ArmedTimer

def idle : ArmedTimer := ⟨none⟩

/-- Arm for `deadline` unless that is what is armed. `sleep` reads the clock
again, so it fires no earlier than `deadline`. -/
def arm (timer : ArmedTimer) (c : Clock) (now deadline : Nat) : (Nat × Nat) × Clock :=
  match timer.armed with
  | some (fires, key) => if key = deadline then ((fires, key), c) else ((c.now + (deadline - now), deadline), c.tick)
  | none => ((c.now + (deadline - now), deadline), c.tick)

/-- Poll the sleep armed for `deadline`: ready only once the clock has reached
the instant it fires at. A sleep that fires late reads a clock that lags. -/
def poll (timer : ArmedTimer) (c : Clock) (now deadline : Nat) : Poll Unit × ArmedTimer × Clock :=
  let ((fires, key), c) := timer.arm c now deadline
  if fires ≤ c.now then (.ready (), idle, c.tick) else (.pending, ⟨some (fires, key)⟩, c.tick)

end ArmedTimer

/-! ## Fault state of one connection -/

structure BlackholeState where
  deadline : Option Nat
  faultId : FaultId
deriving DecidableEq, Repr

structure DisconnectState where
  deadline : Nat
  hardReset : Bool
  faultId : FaultId
deriving DecidableEq, Repr

/-- Chunk decisions of one active stream-loss fault: its own draws, the newest
decided chunk with its outcome, and the outcome the correlation looks at. -/
structure StreamLossConnState where
  rng : DeterministicRng
  decided : Option (Nat × Bool)
  prevDropped : Bool
deriving DecidableEq, Repr

/-- The probability that a chunk is dropped, given whether the one before was:
`min(1, loss_rate + correlation)` in binary64 after a drop. -/
def StreamLossConfig.dropRate (config : StreamLossConfig) (prevDropped : Bool) : ℚ :=
  if prevDropped then min (roundToBinary64 (config.lossRate.get + config.correlation.get)) 1
  else config.lossRate.get

namespace StreamLossConnState

/-- Decide `n` further chunks in order; `drop` is the outcome of the last one
decided so far. -/
def draw (config : StreamLossConfig) : Nat → Bool → StreamLossConnState → Bool × StreamLossConnState
  | 0, drop, conn => (drop, conn)
  | n + 1, _, conn =>
    let (drop, rng) := conn.rng.bernoulli (config.dropRate conn.prevDropped)
    draw config n drop { conn with rng, prevDropped := drop }

/-- The outcome for `chunk`: the cached one, or the next draws up to it. -/
def decide (config : StreamLossConfig) (conn : StreamLossConnState) (chunk : Nat) : Bool × StreamLossConnState :=
  match conn.decided with
  | some (decidedChunk, drop) =>
    if decidedChunk = chunk then (drop, conn)
    else
      let (drop, conn) := draw config (chunk + 1 - satAdd decidedChunk 1) drop conn
      (drop, { conn with decided := some (chunk, drop) })
  | none =>
    let (drop, conn) := draw config (chunk + 1) false conn
    (drop, { conn with decided := some (chunk, drop) })

end StreamLossConnState

/-! ## The engine -/

structure DirectionEngine where
  plan : FaultPlan
  direction : Direction
  queue : List Queued
  buffered : Nat
  highWater : Nat
  maxBuffer : Nat
  rngs : List (Bool × DeterministicRng)
  evidence : EngineEvidence
  termination : Option TerminationInfo
  termHandle : TerminationHandle
  queueTimer : ArmedTimer
  termTimer : ArmedTimer
  shutdownTimer : ArmedTimer
  shutdownDeadline : Option Nat
  slowClose : Option Nat
  remainingLimit : Option (Nat × FaultId)
  blackhole : Option BlackholeState
  disconnect : Option DisconnectState
  bandwidth : Option TokenBucket
  slicerActive : Bool
  sliceCursor : Nat
  streamLoss : List (Option StreamLossConnState)
  streamLossOffset : Nat
  streamLossEvaluated : Nat

namespace DirectionEngine

/-! ## Compilation -/

/-- The identity a connection's random streams are derived from. -/
structure Identity where
  runSeed : UInt64
  proxy : String
  connectionKey : UInt64
  direction : Direction
deriving DecidableEq, Repr

namespace Identity

/-- The activation draw of a fault. -/
def activation (ident : Identity) (fault : FaultSpec) : Bool × DeterministicRng :=
  (DeterministicRng.new (deriveSeed ident.runSeed ident.proxy ident.connectionKey ident.direction fault.id)).bernoulli
    fault.probability.get

/-- Whether the fault is active on this connection. -/
def active (ident : Identity) (fault : FaultSpec) : Bool := (ident.activation fault).1

/-- The chunk stream of a stream-loss fault. -/
def lossRng (ident : Identity) (fault : FaultSpec) : DeterministicRng :=
  .new (deriveStreamLossSeed ident.runSeed ident.proxy ident.connectionKey ident.direction fault.id)

end Identity

/-- `now.checked_add(d).unwrap_or(now + MAX_STREAM_FAULT_DURATION)`. -/
def deadlineAfter (now d : Nat) : Nat := (checkedAdd now d).getD (now + maxStreamFaultDuration)

/-- An indefinite blackhole dominates finite ones, and of two finite ones the
earlier deadline stays, the first of equals. -/
def combineBlackhole (now : Nat) (existing : Option BlackholeState) (id : FaultId) (c : BlackholeConfig) :
    Option BlackholeState :=
  let deadline := c.closeAfter.map (deadlineAfter now)
  match existing, deadline with
  | some ⟨none, old⟩, _ => some ⟨none, old⟩
  | _, none => some ⟨none, id⟩
  | some ⟨some d, old⟩, some n => if d ≤ n then some ⟨some d, old⟩ else some ⟨some n, id⟩
  | none, some n => some ⟨some n, id⟩

/-- The earlier disconnect stays, a hard reset over a graceful one at a tie. -/
def combineDisconnect (now : Nat) (existing : Option DisconnectState) (id : FaultId) (c : DisconnectConfig) :
    Option DisconnectState :=
  let deadline := deadlineAfter now c.after
  match existing with
  | none => some ⟨deadline, c.hardReset, id⟩
  | some old =>
    if deadline < old.deadline ∨ (deadline = old.deadline ∧ c.hardReset ∧ ¬ old.hardReset)
    then some ⟨deadline, c.hardReset, id⟩ else some old

/-- The smallest limit stays, the first of equals. -/
def combineLimit (existing : Option (Nat × FaultId)) (id : FaultId) (c : LimitDataConfig) : Option (Nat × FaultId) :=
  match existing with
  | none => some (c.bytes.get, id)
  | some (limit, old) => if c.bytes.get < limit then some (c.bytes.get, id) else some (limit, old)

/-- Rate and burst each take their minimum. -/
def combineBandwidth (existing : Option (Nat × Nat)) (c : BandwidthConfig) : Option (Nat × Nat) :=
  match existing with
  | none => some (c.bytesPerSecond.get, c.burstBytes.get)
  | some (rate, burst) => some (min rate c.bytesPerSecond.get, min burst c.burstBytes.get)

/-- The locals of the compilation loop. -/
structure Compiled where
  maxBuffer : Nat := 64 * 1024
  remainingLimit : Option (Nat × FaultId) := none
  blackhole : Option BlackholeState := none
  disconnect : Option DisconnectState := none
  bandwidth : Option (Nat × Nat) := none
  slicerActive : Bool := false
  rngs : List (Bool × DeterministicRng) := []
  streamLoss : List (Option StreamLossConnState) := []

/-- What an active fault adds to the engine-wide state. -/
def compileKind (now : Nat) (acc : Compiled) (fault : FaultSpec) : Compiled :=
  match fault.kind with
  | .latency c => { acc with maxBuffer := min acc.maxBuffer c.maxBufferBytes.get }
  | .limitData c => { acc with remainingLimit := combineLimit acc.remainingLimit fault.id c }
  | .blackhole c => { acc with blackhole := combineBlackhole now acc.blackhole fault.id c }
  | .slowClose _ | .streamLoss _ => acc
  | .bandwidth c => { acc with bandwidth := combineBandwidth acc.bandwidth c }
  | .slice _ => { acc with slicerActive := true }
  | .disconnect c => { acc with disconnect := combineDisconnect now acc.disconnect fault.id c }

/-- One turn of the compilation loop: draw the activation, then combine. -/
def compileFault (ident : Identity) (now : Nat) (acc : Compiled) (fault : FaultSpec) : Compiled :=
  let (active, rng) := ident.activation fault
  -- The generator goes on after the activation draw, for inactive faults too.
  if active then
    let acc := compileKind now acc fault
    let loss := match fault.kind with
      | .streamLoss _ => some ⟨ident.lossRng fault, none, false⟩
      | _ => none
    { acc with rngs := acc.rngs ++ [(true, rng)], streamLoss := acc.streamLoss ++ [loss] }
  else { acc with rngs := acc.rngs ++ [(false, rng)], streamLoss := acc.streamLoss ++ [none] }

/-- The delays of the active slow-close stages, which compose by sum. -/
def slowCloseDelays : List FaultSpec → List (Bool × DeterministicRng) → List Nat
  | fault :: faults, (active, _) :: rngs =>
    match active, fault.kind with
    | true, .slowClose config => config.delay :: slowCloseDelays faults rngs
    | _, _ => slowCloseDelays faults rngs
  | _, _ => []

/-- `Iterator::reduce` with `Duration::saturating_add`. -/
def sumDelays : List Nat → Option Nat
  | [] => none
  | d :: ds => some (ds.foldl durationSatAdd d)

/-- The engine a validated plan compiles to at `now`. -/
def compile (plan : FaultPlan) (ident : Identity) (handle : TerminationHandle) (now : Nat) : DirectionEngine :=
  let acc := plan.faults.foldl (compileFault ident now) {}
  { plan
    direction := ident.direction
    queue := []
    buffered := 0
    highWater := 0
    maxBuffer := max acc.maxBuffer 1
    rngs := acc.rngs
    evidence := { termination := handle.get.map (·.request) }
    termination := handle.get
    termHandle := handle
    queueTimer := .idle
    termTimer := .idle
    shutdownTimer := .idle
    shutdownDeadline := none
    slowClose := sumDelays (slowCloseDelays plan.faults acc.rngs)
    remainingLimit := acc.remainingLimit
    blackhole := acc.blackhole
    disconnect := acc.disconnect
    bandwidth := acc.bandwidth.map (fun (rate, burst) => .new rate burst now)
    slicerActive := acc.slicerActive
    sliceCursor := now
    streamLoss := acc.streamLoss
    streamLossOffset := 0
    streamLossEvaluated := 0 }

/-- `DirectionEngine::new_with_arc_plan`. -/
def newWithArcPlan (plan : FaultPlan) (ident : Identity) (handle : TerminationHandle) (c : Clock) :
    Except ValidationError DirectionEngine × Clock :=
  match plan.validate with
  | .error e => (.error e, c)
  | .ok () => (.ok (compile plan ident handle c.now), c.tick)

/-- `DirectionEngine::new`. -/
def new (plan : FaultPlan) (ident : Identity) (c : Clock) : Except ValidationError DirectionEngine × Clock :=
  newWithArcPlan plan ident .new c

/-- `DirectionEngine::empty`, the engine of a stream without a plan. -/
def empty (c : Clock) : DirectionEngine × Clock :=
  ({ plan := .empty
     direction := .upstream
     queue := []
     buffered := 0
     highWater := 0
     maxBuffer := 64 * 1024
     rngs := []
     evidence := {}
     termination := none
     termHandle := .new
     queueTimer := .idle
     termTimer := .idle
     shutdownTimer := .idle
     shutdownDeadline := none
     slowClose := none
     remainingLimit := none
     blackhole := none
     disconnect := none
     bandwidth := none
     slicerActive := false
     sliceCursor := c.now
     streamLoss := []
     streamLossOffset := 0
     streamLossEvaluated := 0 }, c.tick)

/-! ## Observers -/

def isEmpty (e : DirectionEngine) : Bool := e.plan.isEmpty

def isPreservingOnly (e : DirectionEngine) : Bool :=
  e.plan.faults.all fun fault => match fault.kind with
    | .latency _ | .bandwidth _ | .slice _ | .limitData _ | .disconnect _ | .slowClose _ => true
    | .blackhole _ | .streamLoss _ => false

def limitAvailable (e : DirectionEngine) : Nat :=
  match e.remainingLimit with
  | some (remaining, _) => remaining
  | none => u64Max

def boundedAcceptCapacity (e : DirectionEngine) : Nat := min e.limitAvailable (e.maxBuffer - e.buffered)

def evidenceNow (e : DirectionEngine) : EngineEvidence :=
  { e.evidence with bufferedBytes := e.buffered, highWaterBytes := e.highWater }

def terminationRequest (e : DirectionEngine) : Option TerminationRequest := e.termination.map (·.request)

def queueIsEmpty (e : DirectionEngine) : Bool := e.queue.isEmpty

/-- `absorb_evidence`: the counters of the previous generation. -/
def absorbEvidence (e : DirectionEngine) (previous : EngineEvidence) : DirectionEngine :=
  let now := e.evidence
  { e with
    evidence := { now with
      bytesAccepted := satAdd now.bytesAccepted previous.bytesAccepted
      bytesForwarded := satAdd now.bytesForwarded previous.bytesForwarded
      bytesDiscarded := satAdd now.bytesDiscarded previous.bytesDiscarded
      segments := satAdd now.segments previous.segments
      slices := satAdd now.slices previous.slices
      injectedDelayMs := satAdd now.injectedDelayMs previous.injectedDelayMs
      throttledDelayMs := satAdd now.throttledDelayMs previous.throttledDelayMs
      activations := fun i => satAdd (now.activations i) (previous.activations i)
      streamLossChunksEvaluated := satAdd now.streamLossChunksEvaluated previous.streamLossChunksEvaluated
      streamLossChunksDropped := satAdd now.streamLossChunksDropped previous.streamLossChunksDropped
      streamLossBytesDiscarded := satAdd now.streamLossBytesDiscarded previous.streamLossBytesDiscarded }
    highWater := max e.highWater previous.highWaterBytes }

/-! ## Terminations -/

/-- Publish on the handle and record, first wins; whether it was recorded. -/
def publishTermination (e : DirectionEngine) (info : TerminationInfo) : Bool × DirectionEngine :=
  let handle := e.termHandle.publish info
  match e.termination with
  | none => (true, { e with
      termHandle := handle, termination := some info
      evidence := { e.evidence with termination := some info.request } })
  | some old => (false, { e with
      termHandle := handle, evidence := { e.evidence with termination := some old.request } })

/-- Publish, and count an activation of `slot` if this was the first. -/
def publishCounting (e : DirectionEngine) (info : TerminationInfo) (slot : Fin 7) : DirectionEngine :=
  let (first, e) := e.publishTermination info
  if first then { e with evidence := { e.evidence with activations := e.evidence.activations.bumpAt slot } } else e

def disconnectInfo (e : DirectionEngine) (state : DisconnectState) : TerminationInfo where
  request := if state.hardReset then .hardReset else .graceful
  direction := e.direction
  faultId := some state.faultId.value

/-- A graceful request by the fault `id`: a finite blackhole's or a limit's. -/
def gracefulInfo (e : DirectionEngine) (id : FaultId) : TerminationInfo where
  request := .graceful
  direction := e.direction
  faultId := some id.value

def refreshBlackhole (e : DirectionEngine) (now : Nat) : DirectionEngine :=
  match e.blackhole with
  | some ⟨some deadline, id⟩ => if deadline ≤ now then e.publishCounting (e.gracefulInfo id) 2 else e
  | _ => e

/-- Publish a due disconnect, else a finite blackhole past its deadline. -/
def refreshSyncTerminations (e : DirectionEngine) (c : Clock) : DirectionEngine × Clock :=
  if e.termination.isSome then (e, c)
  else
    let now := c.now
    match e.disconnect with
    | some state =>
      if state.deadline ≤ now then (e.publishCounting (e.disconnectInfo state) 6, c.tick)
      else (e.refreshBlackhole now, c.tick)
    | none => (e.refreshBlackhole now, c.tick)

/-- Whether the blackhole still discards; a finite one looks at the clock. -/
def blackholeDiscarding (e : DirectionEngine) (c : Clock) : Bool × Clock :=
  match e.blackhole with
  | none => (false, c)
  | some ⟨none, _⟩ => (true, c)
  | some ⟨some deadline, _⟩ => (decide (c.now < deadline), c.tick)

/-- Take `n` accepted bytes off the limit and request termination at zero. -/
def spendLimit (e : DirectionEngine) (n : Nat) : DirectionEngine :=
  match e.remainingLimit with
  | none => e
  | some (remaining, id) =>
    let e := { e with remainingLimit := some (remaining - n, id) }
    if remaining - n = 0 then e.publishCounting (e.gracefulInfo id) 3 else e

/-! ## Segments -/

/-- The draws of the active slicers; the smallest size wins. -/
def sliceSizes : List FaultSpec → List (Bool × DeterministicRng) → Nat → Nat × List (Bool × DeterministicRng)
  | fault :: faults, (active, rng) :: rngs, size =>
    match active, fault.kind with
    | true, .slice c =>
      let span := satAdd (satMul c.variation 2) 1
      let (offset, rng) := rng.below span
      let stageSize := max (satAdd (c.averageSize.get - c.variation) offset) 1
      let (size, rest) := sliceSizes faults rngs (min size stageSize)
      (size, (active, rng) :: rest)
    | _, _ =>
      let (size, rest) := sliceSizes faults rngs size
      (size, (active, rng) :: rest)
  | _, rngs, size => (size, rngs)

def nextSliceSize (e : DirectionEngine) (remaining : Nat) : Nat × DirectionEngine :=
  let (size, rngs) := sliceSizes e.plan.faults e.rngs (max remaining 1)
  (max (min size remaining) 1, { e with rngs })

/-- The length of the next segment out of `remaining` bytes. -/
def nextChunk (e : DirectionEngine) (remaining : Nat) : Nat × DirectionEngine :=
  if e.slicerActive then
    let (size, e) := e.nextSliceSize remaining
    (min (max size 1) remaining, e)
  else (min (max remaining 1) remaining, e)

/-- The latency one stage adds: the delay with its jitter drawn symmetrically,
floored at zero. -/
def latencyNanos (c : LatencyConfig) (rng : DeterministicRng) : Nat × DeterministicRng :=
  let jitterRange := min c.jitter u64Max
  let (jitter, rng) : Int × DeterministicRng :=
    if jitterRange = 0 then (0, rng)
    else
      let (draw, rng) := rng.below (satAdd (satMul jitterRange 2) 1)
      ((draw : Int) - jitterRange, rng)
  (min (max ((c.delay : Int) + jitter) 0).toNat u64Max, rng)

/-- What the stages make of one segment. -/
structure Staged where
  release : Nat
  sliceDelay : Nat := 0
  injectedDelayMs : Nat
  latency : Bool := false
  slice : Bool := false

/-- The loop over the active latency and slice stages of one segment. -/
def stageSegment : List FaultSpec → List (Bool × DeterministicRng) → Staged →
    Staged × List (Bool × DeterministicRng)
  | fault :: faults, (active, rng) :: rngs, acc =>
    match active, fault.kind with
    | true, .latency c =>
      let (nanos, rng) := latencyNanos c rng
      let acc := { acc with
        release := (checkedAdd acc.release nanos).getD (acc.release + maxStreamFaultDuration)
        injectedDelayMs := satAdd acc.injectedDelayMs (nanos / 1000000)
        latency := true }
      let (acc, rest) := stageSegment faults rngs acc
      (acc, (active, rng) :: rest)
    | true, .slice c =>
      let (acc, rest) := stageSegment faults rngs { acc with sliceDelay := max acc.sliceDelay c.delay, slice := true }
      (acc, (active, rng) :: rest)
    | _, _ =>
      let (acc, rest) := stageSegment faults rngs acc
      (acc, (active, rng) :: rest)
  | _, rngs, acc => (acc, rngs)

/-- The bandwidth stage: the release it imposes on `len` bytes. -/
def throttleSegment (e : DirectionEngine) (len now release : Nat) : Nat × DirectionEngine :=
  match e.bandwidth with
  | none => (release, e)
  | some bucket =>
    let (release, throttledMs, bucket) := bucket.consume len now release
    (release, { e with
      bandwidth := some bucket
      evidence := { e.evidence with throttledDelayMs := satAdd e.evidence.throttledDelayMs throttledMs } })

/-- The inter-slice delay staggers logical slices. -/
def staggerSegment (e : DirectionEngine) (sliceDelay release : Nat) : Nat × DirectionEngine :=
  if e.slicerActive ∧ sliceDelay ≠ 0 then
    let release := max release e.sliceCursor
    (release, { e with
      sliceCursor := (checkedAdd release sliceDelay).getD (release + min maxStreamFaultDuration sliceDelay) })
  else (release, e)

/-- Queue a segment that fits: its stages, its throttle, and the counters.
Returns whether latency and slice stages engaged. -/
def pushSegment (e : DirectionEngine) (bytes : List Byte) (now : Nat) : Bool × Bool × DirectionEngine :=
  let (staged, rngs) := stageSegment e.plan.faults e.rngs
    { release := now, injectedDelayMs := e.evidence.injectedDelayMs }
  let e := { e with rngs, evidence := { e.evidence with injectedDelayMs := staged.injectedDelayMs } }
  let (release, e) := e.throttleSegment bytes.length now staged.release
  let (release, e) := e.staggerSegment staged.sliceDelay release
  (staged.latency, staged.slice, { e with
    queue := e.queue ++ [⟨bytes, release⟩]
    buffered := e.buffered + bytes.length
    highWater := max e.highWater (e.buffered + bytes.length)
    evidence := { e.evidence with
      segments := satAdd e.evidence.segments 1
      slices := if e.slicerActive then satAdd e.evidence.slices 1 else e.evidence.slices } })

/-- Queue `data` segment by segment until one does not fit. Returns the bytes
owned and whether latency and slice stages engaged. -/
def pushLoop (now : Nat) : Nat → DirectionEngine → List Byte → Nat × Bool × Bool × DirectionEngine
  | 0, e, _ => (0, false, false, e)
  | fuel + 1, e, data =>
    if data.isEmpty then (0, false, false, e)
    else
      let (chunk, e) := e.nextChunk data.length
      -- The draw of a segment that does not fit is spent all the same.
      if e.maxBuffer < e.buffered + chunk then (0, false, false, e)
      else
        let (latency, slice, e) := e.pushSegment (data.take chunk) now
        let (owned, latency', slice', e) := pushLoop now fuel e (data.drop chunk)
        (chunk + owned, latency || latency', slice || slice', e)

/-- `push_preserve_run`. -/
def pushPreserveRun (e : DirectionEngine) (data : List Byte) (now : Nat) : Nat × Bool × Bool × DirectionEngine :=
  pushLoop now data.length e data

/-! ## Stream loss -/

/-- The decisions of the active stream-loss faults on one chunk. -/
def decideFaults : List FaultSpec → List (Option StreamLossConnState) → Nat →
    Bool × List (Option StreamLossConnState)
  | fault :: faults, state :: states, chunk =>
    match fault.kind, state with
    | .streamLoss config, some conn =>
      let (drop, conn) := conn.decide config chunk
      let (rest, states) := decideFaults faults states chunk
      (drop || rest, some conn :: states)
    | _, _ =>
      let (rest, states) := decideFaults faults states chunk
      (rest, state :: states)
  | _, states, _ => (false, states)

/-- Whether any active fault drops the chunk; a chunk counts when first seen. -/
def decideStreamLossChunk (e : DirectionEngine) (chunk : Nat) : Bool × DirectionEngine :=
  let (dropAny, streamLoss) := decideFaults e.plan.faults e.streamLoss chunk
  let e := { e with streamLoss }
  if chunk = e.streamLossEvaluated then
    (dropAny, { e with
      streamLossEvaluated := e.streamLossEvaluated + 1
      evidence := { e.evidence with
        streamLossChunksEvaluated := satAdd e.evidence.streamLossChunksEvaluated 1
        streamLossChunksDropped :=
          if dropAny then satAdd e.evidence.streamLossChunksDropped 1 else e.evidence.streamLossChunksDropped } })
  else (dropAny, e)

/-- The end of the chunk that holds the current offset. -/
def chunkEnd (chunk : Nat) : Nat :=
  if chunk + 1 ≤ u64Max ∧ (chunk + 1) * streamLossGrainBytes ≤ u64Max then (chunk + 1) * streamLossGrainBytes
  else u64Max

/-- What the classification loop has accepted. -/
structure Classified where
  offset : Nat := 0
  discarded : Nat := 0
  preserved : Nat := 0
  latency : Bool := false
  slice : Bool := false

/-- Classify `rest`, the input within the limit that is not yet accepted: drop
or queue it chunk by chunk, and stop at the first byte the queue cannot own. -/
def classifyLoop (now : Nat) : Nat → DirectionEngine → List Byte → Classified → Classified × DirectionEngine
  | 0, e, _, acc => (acc, e)
  | fuel + 1, e, rest, acc =>
    if rest.isEmpty then (acc, e)
    else
      let chunk := e.streamLossOffset / streamLossGrainBytes
      let run := min (chunkEnd chunk - e.streamLossOffset) rest.length
      if run = 0 then (acc, e)
      else
        let (drop, e) := e.decideStreamLossChunk chunk
        -- A dropped range needs no room in the queue.
        if drop then
          let e := { e with
            streamLossOffset := satAdd e.streamLossOffset run
            evidence := { e.evidence with segments := satAdd e.evidence.segments 1 } }
          classifyLoop now fuel e (rest.drop run)
            { acc with offset := acc.offset + run, discarded := satAdd acc.discarded run }
        else
          -- The decision has been drawn and counted, also when no byte fits.
          let run := min run (e.maxBuffer - e.buffered)
          if run = 0 then (acc, e)
          else
            let (owned, latency, slice, e) := e.pushPreserveRun (rest.take run) now
            let e := { e with streamLossOffset := satAdd e.streamLossOffset owned }
            let acc := { acc with
              offset := acc.offset + owned
              preserved := acc.preserved + owned
              latency := acc.latency || latency
              slice := acc.slice || slice }
            if owned < run then (acc, e) else classifyLoop now fuel e (rest.drop owned) acc

/-- `accept_with_stream_loss`. -/
def acceptWithStreamLoss (e : DirectionEngine) (input : List Byte) (limitAvailable now : Nat) :
    Nat × DirectionEngine :=
  let limitCap := min input.length limitAvailable
  let (done, e) := classifyLoop now limitCap e (input.take limitCap) {}
  if done.offset = 0 then (0, e)
  else
    let engaged : Fin 7 → Bool := fun i =>
      (i = 0 && done.latency) || (i = 1 && (e.bandwidth.isSome && 0 < done.preserved)) ||
        (i = 3 && e.remainingLimit.isSome) || (i = 5 && done.slice)
    let e := { e with evidence := { e.evidence with
      bytesAccepted := satAdd e.evidence.bytesAccepted done.offset
      bytesDiscarded := satAdd e.evidence.bytesDiscarded done.discarded
      streamLossBytesDiscarded := satAdd e.evidence.streamLossBytesDiscarded done.discarded
      activations := e.evidence.activations.bump engaged } }
    (done.offset, e.spendLimit done.offset)

/-! ## Acceptance -/

/-- Discard `n` bytes into the blackhole. -/
def acceptBlackhole (e : DirectionEngine) (n : Nat) : DirectionEngine :=
  let e := { e with evidence := { e.evidence with
    bytesAccepted := satAdd e.evidence.bytesAccepted n
    bytesDiscarded := satAdd e.evidence.bytesDiscarded n
    segments := satAdd e.evidence.segments 1
    activations := e.evidence.activations.bumpAt 2 } }
  e.spendLimit n

/-- Whether some active fault is of the kind `p` selects. -/
def anyActive (p : FaultKind → Bool) (e : DirectionEngine) : Bool :=
  (e.plan.faults.zip e.rngs).any fun (fault, active, _) => active && p fault.kind

/-- The preserving path: queue `data` and count the call. -/
def acceptPreserving (e : DirectionEngine) (data : List Byte) (now : Nat) : Nat × DirectionEngine :=
  let (offset, _, _, e) := pushLoop now data.length e data
  if offset = 0 then (0, e)
  else
    let engaged : Fin 7 → Bool := fun i =>
      (i = 0 && e.anyActive (· matches .latency _)) || (i = 1 && e.bandwidth.isSome) ||
        (i = 3 && e.remainingLimit.isSome) || (i = 5 && e.anyActive (· matches .slice _))
    let e := { e with evidence := { e.evidence with
      bytesAccepted := satAdd e.evidence.bytesAccepted offset
      activations := e.evidence.activations.bump engaged } }
    (offset, e.spendLimit offset)

/-- The three ways a non-empty input is taken once terminations are refreshed
and the limit is not exhausted. -/
def acceptInto (e : DirectionEngine) (c : Clock) (input : List Byte) (now : Nat) : Nat × DirectionEngine × Clock :=
  let (discarding, c) := e.blackholeDiscarding c
  -- The bound does not apply: nothing is retained.
  if discarding then
    let acceptedCap := min input.length e.limitAvailable
    if acceptedCap = 0 then (0, e, c) else (acceptedCap, e.acceptBlackhole acceptedCap, c)
  else if e.streamLoss.any Option.isSome then
    let (n, e) := e.acceptWithStreamLoss input e.limitAvailable now
    (n, e, c)
  else
    let acceptedCap := min (min input.length e.limitAvailable) (e.maxBuffer - e.buffered)
    if acceptedCap = 0 then (0, e, c)
    else
      let (n, e) := e.acceptPreserving (input.take acceptedCap) now
      (n, e, c)

/-- An exhausted limit refuses input, and requests termination if none is. -/
def refuseAtLimit (e : DirectionEngine) : DirectionEngine :=
  match e.termination, e.remainingLimit with
  | none, some (_, id) => e.publishCounting (e.gracefulInfo id) 3
  | _, _ => e

/-- `DirectionEngine::accept`: the length of the prefix now owned. -/
def accept (e : DirectionEngine) (c : Clock) (input : List Byte) : Nat × DirectionEngine × Clock :=
  let (e, c) := e.refreshSyncTerminations c
  if input.isEmpty then (0, e, c)
  else
    let now := c.now
    let c := c.tick
    if e.limitAvailable = 0 then (0, e.refuseAtLimit, c) else e.acceptInto c input now

/-- Copy at most `remaining` bytes out of the slices, in order. -/
def joinPrefix : List (List Byte) → Nat → List Byte
  | [], _ => []
  | buf :: bufs, remaining =>
    if remaining = 0 then []
    else
      let n := min buf.length remaining
      buf.take n ++ joinPrefix bufs (remaining - n)

/-- The total length of the slices, as a `usize` that saturates. -/
def totalLength (bufs : List (List Byte)) : Nat := bufs.foldl (fun n buf => satAdd n buf.length) 0

/-- `DirectionEngine::accept_vectored`. -/
def acceptVectored (e : DirectionEngine) (c : Clock) (bufs : List (List Byte)) : Nat × DirectionEngine × Clock :=
  let total := totalLength bufs
  if total = 0 then
    let (e, c) := e.refreshSyncTerminations c
    (0, e, c)
  else if ¬ e.isPreservingOnly then e.accept c bufs.flatten
  else
    let bounded := e.boundedAcceptCapacity
    -- Without capacity the call only refreshes terminations.
    if bounded = 0 then e.accept c [] else e.accept c (joinPrefix bufs (min total bounded))

/-! ## Polling -/

/-- The earliest pending deadline of a disconnect or a finite blackhole. -/
def pendingDeadline (e : DirectionEngine) : Option Nat :=
  let first := e.disconnect.map (·.deadline)
  match e.blackhole with
  | some ⟨some deadline, _⟩ => some (match first with
      | some current => min current deadline
      | none => deadline)
  | _ => first

/-- `TerminationHandle::poll_terminated`. -/
def pollTerminated (e : DirectionEngine) : Poll TerminationInfo :=
  match e.termHandle.get with
  | some info => .ready info
  | none => .pending

/-- Refresh, and report the termination or what the handle holds. -/
def reportTermination (e : DirectionEngine) (c : Clock) : Poll TerminationInfo × DirectionEngine × Clock :=
  let (e, c) := e.refreshSyncTerminations c
  match e.termination with
  | some info => (.ready info, e, c)
  | none => (e.pollTerminated, e, c)

/-- `poll_due_termination`. -/
def pollDueTermination (e : DirectionEngine) (c : Clock) : Poll TerminationInfo × DirectionEngine × Clock :=
  let (e, c) := e.refreshSyncTerminations c
  match e.termination with
  | some info => (.ready info, e, c)
  | none =>
    match e.pendingDeadline with
    | none => (e.pollTerminated, e, c)
    | some deadline =>
      let now := c.now
      let c := c.tick
      if now < deadline then
        let (fired, timer, c) := e.termTimer.poll c now deadline
        let e := { e with termTimer := timer }
        -- A sleep that has fired is followed by another look at the deadlines.
        if fired.isPending then (.pending, e, c) else e.reportTermination c
      else e.reportTermination c

section
variable {τ : Type} [AsyncWrite τ]

/-- `poll_queue`: forward due segments from the head until one is not due, the
writer stops, or nothing is queued. -/
def pollQueueLoop : Nat → DirectionEngine → τ → Clock → Poll (IoResult Unit) × DirectionEngine × τ × Clock
  | 0, e, inner, c => (.pending, e, inner, c)
  | fuel + 1, e, inner, c =>
    match e.queue with
    | [] => (.ready (.ok ()), e, inner, c)
    | front :: rest =>
      let now := c.now
      let c := c.tick
      let (held, timer, c) : Poll Unit × ArmedTimer × Clock :=
        if now < front.release then e.queueTimer.poll c now front.release else (.ready (), e.queueTimer, c)
      let e := { e with queueTimer := timer }
      if held.isPending then (.pending, e, inner, c)
      else
        -- One write a turn: a partial write leaves the rest of the segment at the head.
        match AsyncWrite.pollWrite inner front.bytes with
        | (.ready (.ok n), inner) =>
          if n = 0 then (.ready (.error ⟨.writeZero, "inner stream accepted zero bytes"⟩), e, inner, c)
          else if front.bytes.length < n then
            (.ready (.error ⟨.invalidData, "inner stream wrote more than supplied slice"⟩), e, inner, c)
          else
            pollQueueLoop fuel { e with
              evidence := { e.evidence with bytesForwarded := satAdd e.evidence.bytesForwarded n }
              buffered := e.buffered - n
              queue := if n = front.bytes.length then rest else ⟨front.bytes.drop n, front.release⟩ :: rest } inner c
        | (.ready (.error error), inner) => (.ready (.error error), e, inner, c)
        | (.pending, inner) => (.pending, e, inner, c)

/-- The bytes in the queue, in order. -/
def queuedBytes (e : DirectionEngine) : List Byte := e.queue.flatMap (·.bytes)

def pollQueue (e : DirectionEngine) (inner : τ) (c : Clock) : Poll (IoResult Unit) × DirectionEngine × τ × Clock :=
  pollQueueLoop (e.queuedBytes.length + 1) e inner c

/-- `DirectionEngine::poll_flush`. -/
def pollFlush (e : DirectionEngine) (inner : τ) (c : Clock) : Poll (IoResult Unit) × DirectionEngine × τ × Clock :=
  match e.pollQueue inner c with
  | (.ready (.ok ()), e, inner, c) =>
    let (outcome, inner) := AsyncWrite.pollFlush inner
    (outcome, e, inner, c)
  | other => other

/-- Start the slow-close delay at the first shutdown that finds the queue empty. -/
def startSlowClose (e : DirectionEngine) (c : Clock) : DirectionEngine × Clock :=
  match e.shutdownDeadline, e.slowClose with
  | none, some delay =>
    let deadline := (checkedAdd c.now delay).getD (c.now + min maxStreamFaultDuration delay)
    let e := { e with shutdownDeadline := some deadline }
    (if delay ≠ 0 then { e with evidence := { e.evidence with
        activations := e.evidence.activations.bumpAt 4 } } else e, c.tick)
  | _, _ => (e, c)

/-- Wait for the slow-close deadline, if one is set. -/
def awaitSlowClose (e : DirectionEngine) (c : Clock) : Poll Unit × DirectionEngine × Clock :=
  match e.shutdownDeadline with
  | none => (.ready (), e, c)
  | some deadline =>
    let now := c.now
    let c := c.tick
    if now < deadline then
      let (fired, timer, c) := e.shutdownTimer.poll c now deadline
      (fired, { e with shutdownTimer := timer }, c)
    else (.ready (), e, c)

/-- `DirectionEngine::poll_shutdown`. -/
def pollShutdown (e : DirectionEngine) (inner : τ) (c : Clock) : Poll (IoResult Unit) × DirectionEngine × τ × Clock :=
  match e.pollQueue inner c with
  | (.ready (.ok ()), e, inner, c) =>
    let (e, c) := e.startSlowClose c
    match e.awaitSlowClose c with
    | (.pending, e, c) => (.pending, e, inner, c)
    | (.ready (), e, c) =>
      let (outcome, inner) := AsyncWrite.pollShutdown inner
      (outcome, e, inner, c)
  | other => other

end

end DirectionEngine

end Eggchaos
