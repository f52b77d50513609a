import Eggchaos.Policy
import Eggchaos.Polls
/-!
# The write-side stream

`ChaosStream` of `stream.rs`: a transport whose writes pass one direction
engine, with a live policy it follows by swapping engines, and the evidence it
mirrors. Every poll is state passing over the transport and the clock.

A policy is published between polls, never inside one: each poll loads it once,
and the loads a nested call makes find what the first one found.
-/

namespace Eggchaos
open Lib

/-! ## Evidence -/

def maxEvidenceFaults : Nat := 128

structure ActiveFault where
  id : String
  faultType : String
deriving DecidableEq, Repr

/-- The counters `ChaosStream` keeps for readers outside. -/
structure StreamEvidence where
  observedGeneration : Nat := 0
  pendingGeneration : Nat := 0
  seedNamespace : UInt64 := 0
  bytesAccepted : Nat := 0
  bytesForwarded : Nat := 0
  bytesDiscarded : Nat := 0
  highWaterBytes : Nat := 0
  injectedDelayMs : Nat := 0
  throttledDelayMs : Nat := 0
  segments : Nat := 0
  slices : Nat := 0
  bufferedBytes : Nat := 0
  transitions : Nat := 0
  activations : Activations := fun _ => 0
  streamLossChunksEvaluated : Nat := 0
  streamLossChunksDropped : Nat := 0
  streamLossBytesDiscarded : Nat := 0
  activeFaults : List ActiveFault × Bool := ([], false)
  termination : Option TerminationInfo := none
  directBytes : Nat := 0

namespace StreamEvidence

/-- The identities of the plan's faults, as many as evidence holds. -/
def refreshPolicy (ev : StreamEvidence) (generation : Nat) (plan : FaultPlan) (seedNamespace : UInt64) :
    StreamEvidence :=
  { ev with
    observedGeneration := generation
    seedNamespace
    activeFaults := ((plan.faults.take maxEvidenceFaults).map fun fault => ⟨fault.id.value, fault.kind.typeName⟩,
      decide (maxEvidenceFaults < plan.faults.length)) }

def mirrorEngine (ev : StreamEvidence) (engine : DirectionEngine) : StreamEvidence :=
  let evidence := engine.evidenceNow
  { ev with
    bytesAccepted := satAdd evidence.bytesAccepted ev.directBytes
    bytesForwarded := satAdd evidence.bytesForwarded ev.directBytes
    bytesDiscarded := evidence.bytesDiscarded
    highWaterBytes := evidence.highWaterBytes
    injectedDelayMs := evidence.injectedDelayMs
    throttledDelayMs := evidence.throttledDelayMs
    segments := evidence.segments
    slices := evidence.slices
    bufferedBytes := evidence.bufferedBytes
    activations := evidence.activations
    streamLossChunksEvaluated := evidence.streamLossChunksEvaluated
    streamLossChunksDropped := evidence.streamLossChunksDropped
    streamLossBytesDiscarded := evidence.streamLossBytesDiscarded
    termination := match evidence.termination, ev.termination with
      | some request, none => some ⟨request, engine.direction, engine.termination.bind (·.faultId)⟩
      | _, slot => slot }

def noteDirect (ev : StreamEvidence) (bytes : Nat) : StreamEvidence :=
  if 0 < bytes then
    { ev with
      directBytes := satAdd ev.directBytes bytes
      bytesAccepted := satAdd ev.bytesAccepted bytes
      bytesForwarded := satAdd ev.bytesForwarded bytes }
  else ev

/-- A transition is over: the new policy is observed and nothing is pending. -/
def transitioned (ev : StreamEvidence) (snapshot : PublishedPolicy) (engine : DirectionEngine) : StreamEvidence :=
  let ev := ev.refreshPolicy snapshot.generation snapshot.plan snapshot.seedNamespace
  { ev with pendingGeneration := 0, transitions := (ev.transitions + 1) % 2 ^ 64 }.mirrorEngine engine

end StreamEvidence

/-! ## The stream -/

structure ChaosStream (τ : Type) where
  inner : τ
  engine : DirectionEngine
  direction : Direction
  livePolicy : Option LivePolicy
  proxy : String
  connectionKey : UInt64
  observedGeneration : Nat
  evidence : StreamEvidence

/-- `terminated_error`. -/
def terminatedError (info : Option TerminationInfo) : IoError :=
  let detail := match info with
    | some ⟨_, direction, some id⟩ => "terminated by fault " ++ id ++ " (" ++ direction.asStr ++ ")"
    | some ⟨_, direction, none⟩ => "terminated (" ++ direction.asStr ++ ")"
    | none => "terminated"
  ⟨.connectionAborted, "eggchaos stream " ++ detail⟩

/-- The engine that replaces `old` on a transition: it keeps the termination
handle and absorbs the counters. A published plan is valid, so
`new_with_arc_plan` does not fail. -/
def DirectionEngine.replace (old : DirectionEngine) (snapshot : PublishedPolicy) (proxy : String)
    (connectionKey : UInt64) (direction : Direction) (c : Clock) : DirectionEngine × Clock :=
  let engine := compile snapshot.plan ⟨snapshot.seedNamespace, proxy, connectionKey, direction⟩ old.termHandle c.now
  (engine.absorbEvidence old.evidenceNow, c.tick)

/-- The barrier of a transition: drive what is queued, and say whether the drive
is pending. -/
def DirectionEngine.barrier {τ : Type} [AsyncWrite τ] (e : DirectionEngine) (inner : τ) (c : Clock) :
    Bool × DirectionEngine × τ × Clock :=
  if e.queueIsEmpty then (false, e, inner, c)
  else
    let (outcome, e, inner, c) := e.pollFlush inner c
    -- The source asks only this, so an error counts as drained.
    (outcome.isPending, e, inner, c)

namespace ChaosStream
variable {τ : Type}

/-- `ChaosStream::new`. -/
def new (inner : τ) (plan : FaultPlan) (ident : DirectionEngine.Identity) (c : Clock) :
    Except ValidationError (ChaosStream τ) × Clock :=
  match DirectionEngine.new plan ident c with
  | (.error e, c) => (.error e, c)
  | (.ok engine, c) => (.ok {
      inner, engine
      direction := ident.direction
      livePolicy := none
      proxy := ident.proxy
      connectionKey := ident.connectionKey
      observedGeneration := 0
      evidence := ({} : StreamEvidence).refreshPolicy 0 plan ident.runSeed }, c)

/-- `ChaosStream::passthrough`. -/
def passthrough (inner : τ) (direction : Direction) (c : Clock) : ChaosStream τ × Clock :=
  let (engine, c) := DirectionEngine.empty c
  ({ inner, engine, direction
     livePolicy := none
     proxy := ""
     connectionKey := 0
     observedGeneration := 0
     evidence := {} }, c)

/-- `ChaosStream::new_live`. -/
def newLive (inner : τ) (policy : LivePolicy) (proxy : String) (connectionKey : UInt64) (direction : Direction)
    (c : Clock) : Except ValidationError (ChaosStream τ) × Clock :=
  let snapshot := policy.snapshot
  match DirectionEngine.newWithArcPlan snapshot.plan ⟨snapshot.seedNamespace, proxy, connectionKey, direction⟩ .new c with
  | (.error e, c) => (.error e, c)
  | (.ok engine, c) => (.ok {
      inner, engine, direction, proxy, connectionKey
      livePolicy := some policy
      observedGeneration := snapshot.generation
      evidence := ({} : StreamEvidence).refreshPolicy snapshot.generation snapshot.plan snapshot.seedNamespace }, c)

/-- Mirror the engine's counters. -/
def mirror (s : ChaosStream τ) : ChaosStream τ := { s with evidence := s.evidence.mirrorEngine s.engine }

/-- The published generation the engine was not compiled from, if any. -/
def newerPolicy (s : ChaosStream τ) : Option PublishedPolicy := LivePolicy.newer s.livePolicy s.observedGeneration

/-- Replace the engine by one compiled from `snapshot`. -/
def transition (s : ChaosStream τ) (snapshot : PublishedPolicy) (c : Clock) : ChaosStream τ × Clock :=
  let (engine, c) := s.engine.replace snapshot s.proxy s.connectionKey s.direction c
  ({ s with
     engine
     observedGeneration := snapshot.generation
     evidence := s.evidence.transitioned snapshot engine }, c)

/-- Whether the engine's termination is due and what it owned has drained. -/
def terminated (s : ChaosStream τ) : Bool := s.engine.terminationRequest.isSome && s.engine.queueIsEmpty

section Write
variable [AsyncWrite τ]

/-- The engine's `poll_flush` over the stream's own transport. -/
def driveFlush (s : ChaosStream τ) (c : Clock) : Poll (IoResult Unit) × ChaosStream τ × Clock :=
  let (outcome, engine, inner, c) := s.engine.pollFlush s.inner c
  (outcome, { s with engine, inner }, c)

/-- `ChaosStream::update_live`: the barrier drives what is queued, and only a
pending drive holds the transition up. -/
def updateLive (s : ChaosStream τ) (c : Clock) : Poll Unit × ChaosStream τ × Clock :=
  match s.newerPolicy with
  | none => (.ready (), s, c)
  | some snapshot =>
    let s := { s with evidence := { s.evidence with pendingGeneration := snapshot.generation } }
    let (held, engine, inner, c) := s.engine.barrier s.inner c
    let s := { s with engine, inner }
    if held then (.pending, s, c)
    else
      let (s, c) := s.transition snapshot c
      (.ready (), s, c)

/-- The direct path of an empty engine: the transport's outcome, counted. -/
def direct (s : ChaosStream τ) (r : Poll (IoResult Nat) × τ) : Poll (IoResult Nat) × ChaosStream τ :=
  match r with
  | (.ready (.ok written), inner) => (.ready (.ok written), { s with inner, evidence := s.evidence.noteDirect written })
  | (outcome, inner) => (outcome, { s with inner })

/-- A write that reached the engine's `accept`. -/
def acceptWrite (s : ChaosStream τ) (c : Clock) (bytes : List Byte) : Poll (IoResult Nat) × ChaosStream τ × Clock :=
  let (accepted, engine, c) := s.engine.accept c bytes
  let s := { s with engine }
  if 0 < accepted then
    -- An error of this drive is left to the next poll.
    let (_, s, c) := s.driveFlush c
    (.ready (.ok accepted), s.mirror, c)
  else if s.terminated then (.ready (.error (terminatedError s.engine.termination)), s, c)
  else (.pending, s, c)

/-- The bytes offered behind a drive that did not fail. -/
def offer (s : ChaosStream τ) (c : Clock) (bytes : List Byte) : Poll (IoResult Nat) × ChaosStream τ × Clock :=
  if bytes.isEmpty then (.ready (.ok 0), s, c)
  else if s.terminated then (.ready (.error (terminatedError s.engine.termination)), s, c)
  else s.acceptWrite c bytes

/-- A write on a non-empty engine: drive, then offer the bytes. -/
def engineWrite (s : ChaosStream τ) (c : Clock) (bytes : List Byte) : Poll (IoResult Nat) × ChaosStream τ × Clock :=
  match s.driveFlush c with
  | (.ready (.error error), s, c) => (.ready (.error error), s.mirror, c)
  | (_, s, c) => s.offer c bytes

/-- A write once the generation is settled: straight to the transport without a
plan, else through the engine. -/
def settledWrite (s : ChaosStream τ) (c : Clock) (bytes : List Byte) : Poll (IoResult Nat) × ChaosStream τ × Clock :=
  if s.engine.isEmpty then
    let (outcome, s) := s.direct (AsyncWrite.pollWrite s.inner bytes)
    (outcome, s, c)
  else s.engineWrite c bytes

/-- `ChaosStream::poll_write`. -/
def pollWrite (s : ChaosStream τ) (c : Clock) (bytes : List Byte) : Poll (IoResult Nat) × ChaosStream τ × Clock :=
  match s.updateLive c with
  | (.pending, s, c) => (.pending, s, c)
  | (.ready (), s, c) => s.settledWrite c bytes

/-- `ChaosStream::poll_flush`. -/
def pollFlush (s : ChaosStream τ) (c : Clock) : Poll (IoResult Unit) × ChaosStream τ × Clock :=
  match s.updateLive c with
  | (.pending, s, c) => (.pending, s, c)
  | (.ready (), s, c) =>
    let (outcome, s, c) := s.driveFlush c
    (outcome, s.mirror, c)

/-- `ChaosStream::poll_shutdown`. -/
def pollShutdown (s : ChaosStream τ) (c : Clock) : Poll (IoResult Unit) × ChaosStream τ × Clock :=
  match s.updateLive c with
  | (.pending, s, c) => (.pending, s, c)
  | (.ready (), s, c) =>
    let (outcome, engine, inner, c) := s.engine.pollShutdown s.inner c
    (outcome, { s with engine, inner }.mirror, c)

/-- What a vectored write without room reports behind its drive. -/
def stalled (s : ChaosStream τ) (c : Clock) : Poll (IoResult Nat) × ChaosStream τ × Clock :=
  let (engine, c) := s.engine.refreshSyncTerminations c
  let s := { s with engine }
  if s.terminated then (.ready (.error (terminatedError s.engine.termination)), s, c) else (.pending, s, c)

/-- A vectored write that finds no room: drive, refresh, and report. -/
def vectoredFull (s : ChaosStream τ) (c : Clock) : Poll (IoResult Nat) × ChaosStream τ × Clock :=
  match s.driveFlush c with
  | (.ready (.error error), s, c) => (.ready (.error error), s, c)
  | (_, s, c) => s.stalled c

/-- `ChaosStream::poll_write_vectored`. -/
def pollWriteVectored (s : ChaosStream τ) (c : Clock) (bufs : List (List Byte)) :
    Poll (IoResult Nat) × ChaosStream τ × Clock :=
  match s.updateLive c with
  | (.pending, s, c) => (.pending, s, c)
  | (.ready (), s, c) =>
    if s.engine.isEmpty then
      let (outcome, s) := s.direct (AsyncWrite.pollWriteVectored s.inner bufs)
      (outcome, s, c)
    else if ¬ s.engine.isPreservingOnly then s.pollWrite c bufs.flatten
    else
      -- The bound is taken before the drive that frees capacity.
      let bounded := s.engine.boundedAcceptCapacity
      if bounded = 0 then s.vectoredFull c
      else s.pollWrite c (DirectionEngine.joinPrefix bufs (min (DirectionEngine.totalLength bufs) bounded))

/-- `ChaosStream::poll_termination`. -/
def pollTermination (s : ChaosStream τ) (c : Clock) : Poll (Option TerminationInfo) × ChaosStream τ × Clock :=
  if s.engine.isEmpty then (.pending, s, c)
  else
    let (outcome, engine, c) := s.engine.pollDueTermination c
    match outcome with
    | .ready info => (.ready (some info), { s with engine }, c)
    | .pending => (.pending, { s with engine }, c)

/-- `ChaosStream::poll_read` into a buffer with `cap` bytes of room: drive the
write queue, and turn a would-be-idle read into the end of the stream once a
graceful termination has drained. -/
def pollRead [AsyncRead τ] (s : ChaosStream τ) (c : Clock) (cap : Nat) :
    Poll (IoResult (List Byte)) × ChaosStream τ × Clock :=
  if s.engine.isEmpty then
    let (outcome, inner) := AsyncRead.pollRead s.inner cap
    (outcome, { s with inner }, c)
  else
    let (_, s, c) := s.driveFlush c
    let s := s.mirror
    let (outcome, inner) := AsyncRead.pollRead s.inner cap
    let s := { s with inner }
    if s.engine.queueIsEmpty ∧ s.engine.terminationRequest = some .graceful ∧ outcome.isPending then
      (.ready (.ok []), s, c)
    else (outcome, s, c)

end Write

end ChaosStream

end Eggchaos
