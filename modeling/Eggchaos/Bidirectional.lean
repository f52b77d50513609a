import Eggchaos.Stream
/-!
# The bidirectional stream

`BidirectionalChaosStream` of `stream.rs`: one transport with an engine for each
direction. Reads pass the downstream engine: bytes from the transport are
accepted by it, what it cannot own yet waits in `pendingDownstream`, and what it
releases is captured in `output`, from which the caller is served.

The read loop is turns: a turn returns or goes on (`Turn`). It may go on for as
long as the transport has bytes that a blackhole or stream loss swallows, so
`pollRead` takes fuel and returns `none` when the poll has not returned by then.
-/

namespace Eggchaos
open Lib

/-! ## Capturing released bytes -/

/-- `CaptureWriter`: a writer into the output buffer. -/
structure CaptureWriter where
  output : List Byte
deriving DecidableEq, Repr

namespace CaptureWriter

/-- It takes everything. The vectored write is Tokio's default, which writes the
first buffer that is not empty. -/
instance : AsyncWrite CaptureWriter where
  pollWrite t bytes := (.ready (.ok bytes.length), ⟨t.output ++ bytes⟩)
  pollWriteVectored t bufs :=
    let bytes := (bufs.find? fun buf => !buf.isEmpty).getD []
    (.ready (.ok bytes.length), ⟨t.output ++ bytes⟩)
  pollFlush t := (.ready (.ok ()), t)
  pollShutdown t := (.ready (.ok ()), t)

instance : RecordsWrites CaptureWriter where
  log := output
  log_pollWrite t bytes := by simp [AsyncWrite.pollWrite, taken]
  log_pollFlush _ := rfl
  log_pollShutdown _ := rfl

end CaptureWriter

/-! ## The stream -/

structure BidirectionalChaosStream (τ : Type) where
  inner : τ
  upstream : DirectionEngine
  downstream : DirectionEngine
  output : List Byte
  pendingDownstream : List Byte
  upstreamPolicy : Option LivePolicy
  downstreamPolicy : Option LivePolicy
  observedUpstream : Nat
  observedDownstream : Nat
  proxy : String
  connectionKey : UInt64
  upstreamEvidence : StreamEvidence
  downstreamEvidence : StreamEvidence

namespace BidirectionalChaosStream
variable {τ : Type}

/-- `BidirectionalChaosStream::new_live`. -/
def newLive (inner : τ) (upstream downstream : LivePolicy) (proxy : String) (connectionKey : UInt64) (c : Clock) :
    Except ValidationError (BidirectionalChaosStream τ) × Clock :=
  let up := upstream.snapshot
  let down := downstream.snapshot
  match DirectionEngine.newWithArcPlan up.plan ⟨up.seedNamespace, proxy, connectionKey, .upstream⟩ .new c with
  | (.error e, c) => (.error e, c)
  | (.ok upstreamEngine, c) =>
    match DirectionEngine.newWithArcPlan down.plan ⟨down.seedNamespace, proxy, connectionKey, .downstream⟩ .new c with
    | (.error e, c) => (.error e, c)
    | (.ok downstreamEngine, c) => (.ok {
        inner
        upstream := upstreamEngine
        downstream := downstreamEngine
        output := []
        pendingDownstream := []
        upstreamPolicy := some upstream
        downstreamPolicy := some downstream
        observedUpstream := up.generation
        observedDownstream := down.generation
        proxy, connectionKey
        upstreamEvidence := ({} : StreamEvidence).refreshPolicy up.generation up.plan up.seedNamespace
        downstreamEvidence := ({} : StreamEvidence).refreshPolicy down.generation down.plan down.seedNamespace }, c)

def mirrorUpstream (s : BidirectionalChaosStream τ) : BidirectionalChaosStream τ :=
  { s with upstreamEvidence := s.upstreamEvidence.mirrorEngine s.upstream }

def mirrorDownstream (s : BidirectionalChaosStream τ) : BidirectionalChaosStream τ :=
  { s with downstreamEvidence := s.downstreamEvidence.mirrorEngine s.downstream }

/-- The second half of `update_policies`: the downstream engine, which waits for
the output to be served first. -/
def updateDownstream (s : BidirectionalChaosStream τ) (c : Clock) : Poll Unit × BidirectionalChaosStream τ × Clock :=
  match LivePolicy.newer s.downstreamPolicy s.observedDownstream with
  | none => (.ready (), s, c)
  | some snapshot =>
    let s := { s with downstreamEvidence := { s.downstreamEvidence with pendingGeneration := snapshot.generation } }
    -- Not held up but put off: the poll goes on under the old plan.
    if ¬ s.output.isEmpty then (.ready (), s, c)
    else
      let (held, downstream, captured, c) := s.downstream.barrier (CaptureWriter.mk s.output) c
      let s := { s with downstream, output := captured.output }
      if held then (.pending, s, c)
      else
        let (downstream, c) := s.downstream.replace snapshot s.proxy s.connectionKey .downstream c
        (.ready (), { s with
          downstream
          observedDownstream := snapshot.generation
          downstreamEvidence := s.downstreamEvidence.transitioned snapshot downstream }, c)

/-- `poll_flush` of the downstream engine into the output. -/
def flushDownstream (s : BidirectionalChaosStream τ) (c : Clock) :
    Poll (IoResult Unit) × BidirectionalChaosStream τ × Clock :=
  let (outcome, downstream, captured, c) := s.downstream.pollFlush (CaptureWriter.mk s.output) c
  (outcome, { s with downstream, output := captured.output }, c)

/-- Hand bytes to the downstream engine; what it does not take is pending. -/
def acceptDownstream (s : BidirectionalChaosStream τ) (c : Clock) (bytes : List Byte) :
    Nat × BidirectionalChaosStream τ × Clock :=
  let (accepted, downstream, c) := s.downstream.accept c bytes
  (accepted, { s with downstream, pendingDownstream := s.pendingDownstream ++ bytes.drop accepted }.mirrorDownstream, c)

section
variable [AsyncWrite τ]

/-- The first half of `update_policies`: the upstream engine. -/
def updateUpstream (s : BidirectionalChaosStream τ) (c : Clock) : Poll Unit × BidirectionalChaosStream τ × Clock :=
  match LivePolicy.newer s.upstreamPolicy s.observedUpstream with
  | none => (.ready (), s, c)
  | some snapshot =>
    let s := { s with upstreamEvidence := { s.upstreamEvidence with pendingGeneration := snapshot.generation } }
    let (held, upstream, inner, c) := s.upstream.barrier s.inner c
    let s := { s with upstream, inner }
    if held then (.pending, s, c)
    else
      let (upstream, c) := s.upstream.replace snapshot s.proxy s.connectionKey .upstream c
      (.ready (), { s with
        upstream
        observedUpstream := snapshot.generation
        upstreamEvidence := s.upstreamEvidence.transitioned snapshot upstream }, c)

/-- `BidirectionalChaosStream::update_policies`. Published plans are valid, so
the error of the source does not occur. -/
def updatePolicies (s : BidirectionalChaosStream τ) (c : Clock) :
    Poll (IoResult Unit) × BidirectionalChaosStream τ × Clock :=
  match s.updateUpstream c with
  | (.pending, s, c) => (.pending, s, c)
  | (.ready (), s, c) =>
    match s.updateDownstream c with
    | (.pending, s, c) => (.pending, s, c)
    | (.ready (), s, c) => (.ready (.ok ()), s, c)

/-- The upstream engine's `poll_flush` over the transport. -/
def flushUpstream (s : BidirectionalChaosStream τ) (c : Clock) :
    Poll (IoResult Unit) × BidirectionalChaosStream τ × Clock :=
  let (outcome, upstream, inner, c) := s.upstream.pollFlush s.inner c
  (outcome, { s with upstream, inner }, c)

/-- Whether the upstream termination is due and what the engine owned has drained. -/
def terminated (s : BidirectionalChaosStream τ) : Bool :=
  s.upstream.terminationRequest.isSome && s.upstream.queueIsEmpty

/-- A write once the policies are settled. -/
def settledWrite (s : BidirectionalChaosStream τ) (c : Clock) (bytes : List Byte) :
    Poll (IoResult Nat) × BidirectionalChaosStream τ × Clock :=
  if s.upstream.isEmpty then
    match AsyncWrite.pollWrite s.inner bytes with
    | (.ready (.ok written), inner) =>
      (.ready (.ok written), { s with inner, upstreamEvidence := s.upstreamEvidence.noteDirect written }, c)
    | (outcome, inner) => (outcome, { s with inner }, c)
  else
    match s.flushUpstream c with
    | (.ready (.error error), s, c) => (.ready (.error error), s.mirrorUpstream, c)
    | (_, s, c) =>
      if bytes.isEmpty then (.ready (.ok 0), s, c)
      else if s.terminated then
        (.ready (.error (terminatedError s.upstream.termination)), s.mirrorUpstream, c)
      else
        let (accepted, upstream, c) := s.upstream.accept c bytes
        let s := { s with upstream }
        if 0 < accepted then
          let (_, s, c) := s.flushUpstream c
          (.ready (.ok accepted), s.mirrorUpstream, c)
        else if s.terminated then (.ready (.error (terminatedError s.upstream.termination)), s, c)
        else (.pending, s, c)

/-- `BidirectionalChaosStream::poll_write`. -/
def pollWrite (s : BidirectionalChaosStream τ) (c : Clock) (bytes : List Byte) :
    Poll (IoResult Nat) × BidirectionalChaosStream τ × Clock :=
  match s.updatePolicies c with
  | (.ready (.ok ()), s, c) => s.settledWrite c bytes
  | (.ready (.error error), s, c) => (.ready (.error error), s, c)
  | (.pending, s, c) => (.pending, s, c)

/-- `BidirectionalChaosStream::poll_write_vectored`. -/
def pollWriteVectored (s : BidirectionalChaosStream τ) (c : Clock) (bufs : List (List Byte)) :
    Poll (IoResult Nat) × BidirectionalChaosStream τ × Clock :=
  s.pollWrite c bufs.flatten

/-- `BidirectionalChaosStream::poll_flush`. -/
def pollFlush (s : BidirectionalChaosStream τ) (c : Clock) :
    Poll (IoResult Unit) × BidirectionalChaosStream τ × Clock :=
  match s.updatePolicies c with
  | (.ready (.ok ()), s, c) =>
    let (outcome, s, c) := s.flushUpstream c
    (outcome, s.mirrorUpstream, c)
  | other => other

/-- `BidirectionalChaosStream::poll_shutdown`. -/
def pollShutdown (s : BidirectionalChaosStream τ) (c : Clock) :
    Poll (IoResult Unit) × BidirectionalChaosStream τ × Clock :=
  match s.updatePolicies c with
  | (.ready (.ok ()), s, c) =>
    let (outcome, upstream, inner, c) := s.upstream.pollShutdown s.inner c
    (outcome, { s with upstream, inner }, c)
  | other => other

end

/-! ## Reading -/

/-- What one turn of the read loop comes to. -/
inductive Turn (τ : Type) where
  | done (outcome : Poll (IoResult (List Byte))) (s : BidirectionalChaosStream τ) (c : Clock)
  | again (s : BidirectionalChaosStream τ) (c : Clock)

/-- The buffer each turn reads the transport into. -/
def readChunk : Nat := 8192

/-- Offer the pending bytes to the engine again. An engine that refuses them with
nothing queued has used up a permanent limit: the bytes are discarded and the
caller sees the end of the stream. -/
def offerPending (s : BidirectionalChaosStream τ) (c : Clock) : Turn τ :=
  let pending := s.pendingDownstream
  let (accepted, s, c) := { s with pendingDownstream := [] }.acceptDownstream c pending
  if accepted = 0 then
    if s.downstream.queueIsEmpty then .done (.ready (.ok [])) { s with pendingDownstream := [] } c
    else
      match s.flushDownstream c with
      | (.ready (.error error), s, c) => .done (.ready (.error error)) s c
      | (outcome, s, c) => if outcome.isPending ∧ s.output.isEmpty then .done .pending s c else .again s c
  else .again s c

section
variable [AsyncRead τ]

/-- Read the transport and hand the bytes to the engine. -/
def readInner (s : BidirectionalChaosStream τ) (c : Clock) : Turn τ :=
  match AsyncRead.pollRead s.inner readChunk with
  | (.ready (.ok bytes), inner) =>
    let s := { s with inner }
    if bytes.isEmpty then .done (.ready (.ok [])) s c
    else
      let (accepted, s, c) := s.acceptDownstream c bytes
      if accepted = 0 then .done .pending s c else .again s c
  | (.ready (.error error), inner) => .done (.ready (.error error)) { s with inner } c
  | (.pending, inner) => .done .pending { s with inner } c

/-- The same after a graceful termination: live bytes are delivered first, and
only a would-be-idle read becomes the end of the stream. -/
def readGraceful (s : BidirectionalChaosStream τ) (c : Clock) : Turn τ :=
  match AsyncRead.pollRead s.inner readChunk with
  | (.ready (.ok bytes), inner) =>
    let s := { s with inner }
    if bytes.isEmpty then .done (.ready (.ok [])) s c
    else
      let (accepted, s, c) := s.acceptDownstream c bytes
      if accepted = 0 then .again s c
      else
        match s.flushDownstream c with
        | (.ready (.error error), s, c) => .done (.ready (.error error)) s.mirrorDownstream c
        | (outcome, s, c) =>
          let s := s.mirrorDownstream
          if outcome.isPending ∧ s.output.isEmpty then .done .pending s c else .again s c
  | (.ready (.error error), inner) => .done (.ready (.error error)) { s with inner } c
  | (.pending, inner) => .done (.ready (.ok [])) { s with inner } c

def resetError (info : Option TerminationInfo) : IoError :=
  ⟨.connectionReset, match info.bind (·.faultId) with
    | none => "connection reset"
    | some id => "connection reset by fault " ++ id⟩

/-- The turn once nothing is queued, pending or captured. -/
def readDrained (s : BidirectionalChaosStream τ) (c : Clock) : Turn τ :=
  match s.downstream.terminationRequest with
  | some .graceful => s.readGraceful c
  | some .hardReset => .done (.ready (.error (resetError s.downstream.termination))) s c
  | none => s.readInner c

/-- One turn of the loop of `poll_read`, with room for `cap` bytes. -/
def readTurn (s : BidirectionalChaosStream τ) (c : Clock) (cap : Nat) : Turn τ :=
  if ¬ s.output.isEmpty then
    let take := min cap s.output.length
    .done (.ready (.ok (s.output.take take))) { s with output := s.output.drop take } c
  else if ¬ s.pendingDownstream.isEmpty then s.offerPending c
  else if ¬ s.downstream.queueIsEmpty then
    match s.flushDownstream c with
    | (.pending, s, c) => .done .pending s.mirrorDownstream c
    | (.ready (.error error), s, c) => .done (.ready (.error error)) s.mirrorDownstream c
    | (.ready (.ok ()), s, c) =>
      let s := s.mirrorDownstream
      if ¬ s.output.isEmpty then .again s c else s.readDrained c
  else s.readDrained c

def readLoop : Nat → BidirectionalChaosStream τ → Clock → Nat →
    Option (Poll (IoResult (List Byte)) × BidirectionalChaosStream τ × Clock)
  | 0, _, _, _ => none
  | fuel + 1, s, c, cap =>
    match s.readTurn c cap with
    | .done outcome s c => some (outcome, s, c)
    | .again s c => readLoop fuel s c cap

variable [AsyncWrite τ]

/-- A read drives the write direction first. -/
def pump (s : BidirectionalChaosStream τ) (c : Clock) : BidirectionalChaosStream τ × Clock :=
  if s.upstream.isEmpty then (s, c)
  else
    let (_, s, c) := s.flushUpstream c
    (s.mirrorUpstream, c)

/-- A read once the policies are settled. -/
def settledRead (fuel : Nat) (s : BidirectionalChaosStream τ) (c : Clock) (cap : Nat) :
    Option (Poll (IoResult (List Byte)) × BidirectionalChaosStream τ × Clock) :=
  let (s, c) := s.pump c
  -- Straight from the transport: neither output nor pending bytes are served here.
  if s.downstream.isEmpty then
    match AsyncRead.pollRead s.inner cap with
    | (.ready (.ok bytes), inner) =>
      some (.ready (.ok bytes), { s with inner, downstreamEvidence := s.downstreamEvidence.noteDirect bytes.length }, c)
    | (outcome, inner) => some (outcome, { s with inner }, c)
  else readLoop fuel s c cap

/-- `BidirectionalChaosStream::poll_read` into a buffer with `cap` bytes of room. -/
def pollRead (fuel : Nat) (s : BidirectionalChaosStream τ) (c : Clock) (cap : Nat) :
    Option (Poll (IoResult (List Byte)) × BidirectionalChaosStream τ × Clock) :=
  match s.updatePolicies c with
  | (.ready (.ok ()), s, c) => s.settledRead fuel c cap
  | (.ready (.error error), s, c) => some (.ready (.error error), s, c)
  | (.pending, s, c) => some (.pending, s, c)

end

end BidirectionalChaosStream

end Eggchaos
