import Eggchaos.DatagramRuns
/-!
# A datagram association

One association of the UDP proxy as a state machine: the worker of
`association_loop`, the calls of `receive_client_datagram` that hold it, the
idle reaper, and whoever removes it. Each step makes one access to what the
tasks share (the channel, the two atomics, the token, the record, the slot), so
a run is an interleaving of them. A step whose turn it is not changes nothing.

The worker's sends await, but touch only the egress counters, so a batch is one
step. When a datagram's turn comes the token may be set already; which turns see
it, and what the socket answers, is the environment's (`SendIo`). Instants are
naturals, and every `Instant::now()` is an argument.

The last four fields of the state are the books of the proofs: no step reads them.
-/

namespace Eggchaos
open Lib

/-! ## The record -/

/-- The counters of `AssociationRecord`. -/
structure AssociationRecord where
  lastActivity : Nat
  ingressDatagrams : Nat := 0
  ingressBytes : Nat := 0
  egressDatagrams : Nat := 0
  egressBytes : Nat := 0
  ingressQueueOverflow : Nat := 0
  oversizeDatagrams : Nat := 0
  administrativeDiscards : Nat := 0
  sendErrors : Nat := 0
  upstreamEvidence : DatagramEvidence := {}
  downstreamEvidence : DatagramEvidence := {}

/-- The filter of `reap_idle`. -/
def AssociationRecord.expired (r : AssociationRecord) (pending now idleTimeout : Nat) : Bool :=
  (r.upstreamEvidence.queuedDatagrams == 0 && r.downstreamEvidence.queuedDatagrams == 0) && pending == 0 &&
    decide (idleTimeout ≤ now - r.lastActivity)

/-- `update_evidence`. -/
def AssociationRecord.updateEvidence (r : AssociationRecord) (upstream downstream : DatagramDirectionEngine) :
    AssociationRecord :=
  { r with upstreamEvidence := upstream.evidence, downstreamEvidence := downstream.evidence }

/-! ## Sending -/

/-- The environment of one batch, by the index of the datagram: whether a set
token is seen before its send, and whether the socket takes the whole payload. -/
structure SendIo where
  late : Nat → Bool
  sent : Nat → Bool

/-- One environment for each direction's socket. -/
structure TurnIo where
  upstream : SendIo
  downstream : SendIo

structure Batch where
  egressDatagrams : Nat := 0
  egressBytes : Nat := 0
  sendErrors : Nat := 0

def AssociationRecord.noteBatch (r : AssociationRecord) (b : Batch) : AssociationRecord :=
  { r with
    egressDatagrams := satAdd r.egressDatagrams b.egressDatagrams
    egressBytes := satAdd r.egressBytes b.egressBytes
    sendErrors := satAdd r.sendErrors b.sendErrors }

/-- The loop over a batch from index `i` on. It stops before a datagram whose
turn sees the token, and then returns how many were left. -/
def sendLoop (io : SendIo) (cancelled : Bool) : Nat → List DatagramScheduled → Batch → Batch × Option Nat
  | _, [], b => (b, none)
  | i, d :: ds, b =>
    if cancelled && io.late i then (b, some (ds.length + 1))
    else if io.sent i then
      sendLoop io cancelled (i + 1) ds { b with
        egressDatagrams := satAdd b.egressDatagrams 1
        egressBytes := satAdd b.egressBytes d.payload.length }
    else sendLoop io cancelled (i + 1) ds { b with sendErrors := satAdd b.sendErrors 1 }

/-- `send_upstream` and `send_downstream`, which differ in the socket. Returns
whether the loop has to stop, the record and `evidence_dirty`. -/
def sendBatch (io : SendIo) (cancelled : Bool) (ready : List DatagramScheduled) (r : AssociationRecord) (dirty : Bool) :
    Bool × AssociationRecord × Bool :=
  match sendLoop io cancelled 0 ready {} with
  | (b, some left) =>
    (true, { r.noteBatch b with administrativeDiscards := satAdd r.administrativeDiscards left }, true)
  | (b, none) =>
    if 0 < b.egressDatagrams ∨ 0 < b.sendErrors then (false, r.noteBatch b, true) else (false, r, dirty)

def sendUpstream (io : TurnIo) := sendBatch io.upstream
def sendDownstream (io : TurnIo) := sendBatch io.downstream

/-- `next_deadline`: the release of the first candidate in pop order. -/
def DatagramDirectionEngine.nextDeadline (e : DatagramDirectionEngine) : Option Nat := e.queue.head?.map (·.at_)

/-! ## The association -/

/-- A datagram on its way to the worker, under the policy of its arrival. -/
structure Ingress where
  payload : List Byte
  policy : PublishedDatagramPolicy

/-- The registry slot of the client: being set up, holding this association, or
without it, and by whose doing. -/
inductive AssociationSlot where
  | starting
  | active
  | drained
  | reaped
  | removed
deriving DecidableEq, Repr

/-- Where the worker is in `association_loop`. -/
inductive WorkerPhase where
  /-- About to read the clock and emit. -/
  | top
  /-- Suspended in the `select`. -/
  | parked
  /-- The channel gave a datagram; it is still counted as pending. -/
  | taken (item : Ingress)
  | admitting (item : Ingress)
  /-- The upstream socket gave a payload or an error. -/
  | arrived (received : Option (List Byte))
  /-- Admitted and sent what could be; about to note the activity. -/
  | noting
  /-- Past the `select`. -/
  | bottom
  /-- Out of the loop. -/
  | broken
  /-- The final count is taken: what the schedulers held and what waited. -/
  | counted (queued : Nat) (waiting : List Ingress)
  /-- The record is final; the receiver still lives. -/
  | recorded
  | ended

/-- `stop_association`, up to the cancellation. -/
inductive StopPhase where
  | marking (administrative : Bool)
  | cancelling
deriving DecidableEq, Repr

structure AssociationState where
  slot : AssociationSlot
  /-- `ingress_per_association`. -/
  capacity : Nat
  channel : List Ingress
  receiverOpen : Bool
  pendingIngress : Nat
  administrativeCancel : Bool
  cancelled : Bool
  record : AssociationRecord
  phase : WorkerPhase
  upstream : DatagramDirectionEngine
  downstream : DatagramDirectionEngine
  /-- `evidence_dirty` of the current turn. -/
  dirty : Bool
  /-- Calls of `receive_client_datagram` that hold the association, by their next
  access: the pending counter, the channel, or the record after a send. A refused
  one takes its count back first; the flag says that the channel was closed. -/
  resolved : List (List Byte)
  announced : List Ingress
  delivered : List Ingress
  refused : List Bool
  retracted : List Bool
  /-- Reapers that found the association expired and have not come to it yet. -/
  reapers : Nat
  stop : Option StopPhase
  /-- The datagrams the channel took, in order. -/
  accepted : List Ingress
  /-- Those of them that `upstream.admit` took. -/
  admitted : List Ingress
  /-- Those that the final count added to `administrative_discards`. -/
  discarded : List Ingress
  /-- What else that counter was raised by. -/
  otherDiscards : Nat

/-- What ends a `select`. -/
inductive Wake where
  | cancelled
  | ingress
  | received (datagram : Option (List Byte))
  | deadline (now : Nat)

inductive AssociationOp where
  /-- The last section of `publish_association`. -/
  | publish (kept : Bool)
  -- `receive_client_datagram`
  | receive (payload : List Byte) (now : Nat)
  | announce (i : Nat) (policy : PublishedDatagramPolicy) (granted : Bool) (now : Nat)
  | trySend (i : Nat)
  | noteSent (i : Nat) (now : Nat)
  | retract (i : Nat)
  | noteRefused (i : Nat) (now : Nat)
  -- `association_loop`
  | emit (now : Nat) (io : TurnIo)
  | wake (event : Wake)
  | retire
  | admission (now : Nat) (policy : PublishedDatagramPolicy) (io : TurnIo)
  | note (now : Nat)
  | update
  | count
  | close
  | finish
  -- `reap_idle`
  | check (now idleTimeout : Nat)
  | reap
  /-- `kill_association` or a drain takes the slot. -/
  | remove
  -- `stop_association`
  | mark
  | cancel

namespace AssociationState

/-! ## Clients -/

/-- The size check of `receive_client_datagram`, and its lookup of the slot. -/
def receive (s : AssociationState) (payload : List Byte) (now : Nat) : AssociationState :=
  if s.slot = .active then
    if s.upstream.limits.maxDatagramBytes.get < payload.length then
      { s with record := { s.record with
          oversizeDatagrams := satAdd s.record.oversizeDatagrams 1
          lastActivity := now } }
    else { s with resolved := s.resolved ++ [payload] }
  else s

/-- The policy snapshot, the byte reservation, and `pending_ingress.fetch_add`. -/
def announce (s : AssociationState) (i : Nat) (policy : PublishedDatagramPolicy) (granted : Bool) (now : Nat) :
    AssociationState :=
  match s.resolved[i]? with
  | some payload =>
    let s := { s with resolved := s.resolved.eraseIdx i }
    if granted then
      { s with pendingIngress := s.pendingIngress + 1, announced := s.announced ++ [⟨payload, policy⟩] }
    else
      { s with record := { s.record with
          ingressQueueOverflow := satAdd s.record.ingressQueueOverflow 1
          lastActivity := now } }
  | none => s

/-- `sender.try_send`. -/
def trySend (s : AssociationState) (i : Nat) : AssociationState :=
  match s.announced[i]? with
  | some item =>
    let s := { s with announced := s.announced.eraseIdx i }
    if !s.receiverOpen then { s with refused := s.refused ++ [true] }
    else if s.capacity ≤ s.channel.length then { s with refused := s.refused ++ [false] }
    else
      { s with
        channel := s.channel ++ [item]
        delivered := s.delivered ++ [item]
        accepted := s.accepted ++ [item] }
  | none => s

def noteSent (s : AssociationState) (i now : Nat) : AssociationState :=
  match s.delivered[i]? with
  | some item =>
    { s with
      delivered := s.delivered.eraseIdx i
      record := { s.record with
        ingressDatagrams := satAdd s.record.ingressDatagrams 1
        ingressBytes := satAdd s.record.ingressBytes item.payload.length
        lastActivity := now } }
  | none => s

/-- `pending_ingress.fetch_sub` of a refused call. -/
def retract (s : AssociationState) (i : Nat) : AssociationState :=
  match s.refused[i]? with
  | some closed =>
    { s with
      refused := s.refused.eraseIdx i
      pendingIngress := s.pendingIngress - 1
      retracted := s.retracted ++ [closed] }
  | none => s

/-- Only a closed channel is an administrative discard. -/
def noteRefused (s : AssociationState) (i now : Nat) : AssociationState :=
  match s.retracted[i]? with
  | some closed =>
    let noted := { s.record with
      ingressQueueOverflow := satAdd s.record.ingressQueueOverflow 1
      lastActivity := now }
    let s := { s with retracted := s.retracted.eraseIdx i }
    if closed then
      { s with
        record := { noted with administrativeDiscards := satAdd noted.administrativeDiscards 1 }
        otherDiscards := s.otherDiscards + 1 }
    else { s with record := noted }
  | none => s

/-! ## The worker -/

/-- A batch goes out: the loop goes on in `next`, or stops. What a set token
leaves unsent is an administrative discard. -/
def sending (s : AssociationState) (result : Bool × AssociationRecord × Bool) (left : Nat) (next : WorkerPhase) :
    AssociationState :=
  let (stop, record, dirty) := result
  if stop then { s with record, dirty, phase := .broken, otherDiscards := s.otherDiscards + left }
  else { s with record, dirty, phase := next }

/-- What a batch leaves unsent. -/
def unsent (io : SendIo) (cancelled : Bool) (ready : List DatagramScheduled) : Nat :=
  ((sendLoop io cancelled 0 ready {}).2).getD 0

/-- The first half of `emit_ready`, at the top of a turn, whose `evidence_dirty`
starts unset. -/
def emitUpstream (s : AssociationState) (now : Nat) (io : TurnIo) : AssociationState :=
  let (ready, upstream) := s.upstream.takeReady now
  let s := { s with upstream, dirty := false, phase := .parked }
  if ready.isEmpty then s
  else s.sending (sendUpstream io s.cancelled ready s.record s.dirty) (unsent io.upstream s.cancelled ready) .parked

def emitDownstream (s : AssociationState) (now : Nat) (io : TurnIo) : AssociationState :=
  let (ready, downstream) := s.downstream.takeReady now
  let s := { s with downstream }
  if ready.isEmpty then s
  else s.sending (sendDownstream io s.cancelled ready s.record s.dirty) (unsent io.downstream s.cancelled ready) .parked

/-- `emit_ready`; the loop parks unless a send saw the token. -/
def emitReady (s : AssociationState) (now : Nat) (io : TurnIo) : AssociationState :=
  let s := s.emitUpstream now io
  match s.phase with
  | .parked => s.emitDownstream now io
  | _ => s

/-- The instant the loop waits for. -/
def next (s : AssociationState) : Option Nat := s.upstream.nextDeadline.merge min s.downstream.nextDeadline

/-- The branch of the `select` that is taken. -/
def wake (s : AssociationState) : Wake → AssociationState
  | .cancelled => if s.cancelled then { s with phase := .broken } else s
  | .ingress =>
    match s.channel with
    | item :: rest => { s with channel := rest, phase := .taken item }
    | [] => s
  | .received datagram => { s with phase := .arrived datagram }
  | .deadline now =>
    match s.next with
    | some deadline => if deadline ≤ now then { s with phase := .bottom } else s
    | none => s

/-- After `upstream.admit`. -/
def admittedUpstream (s : AssociationState) (item : Ingress) (now : Nat) (io : TurnIo) : AssociationState :=
  let (admission, upstream) := s.upstream.admitDatagram now item.payload item.policy
  let s := { s with upstream, admitted := s.admitted ++ [item], phase := .noting }
  match admission with
  | .immediate ready =>
    s.sending (sendUpstream io s.cancelled ready s.record s.dirty) (unsent io.upstream s.cancelled ready) .noting
  | .queued | .consumed => s

/-- After `downstream.admit`. -/
def admittedDownstream (s : AssociationState) (payload : List Byte) (now : Nat) (policy : PublishedDatagramPolicy)
    (io : TurnIo) : AssociationState :=
  let (admission, downstream) := s.downstream.admitDatagram now payload policy
  let s := { s with downstream, phase := .noting }
  match admission with
  | .immediate ready =>
    s.sending (sendDownstream io s.cancelled ready s.record s.dirty) (unsent io.downstream s.cancelled ready) .noting
  | .queued | .consumed => s

/-- The body of the branch that took a datagram. -/
def admission (s : AssociationState) (now : Nat) (policy : PublishedDatagramPolicy) (io : TurnIo) : AssociationState :=
  match s.phase with
  | .admitting item => s.admittedUpstream item now io
  | .arrived (some payload) =>
    if s.downstream.limits.maxDatagramBytes.get < payload.length then
      { s with
        dirty := true
        phase := .bottom
        record := { s.record with
          oversizeDatagrams := satAdd s.record.oversizeDatagrams 1
          lastActivity := now } }
    else s.admittedDownstream payload now policy io
  | .arrived none =>
    { s with
      dirty := true
      phase := .bottom
      record := { s.record with sendErrors := satAdd s.record.sendErrors 1 } }
  | _ => s

/-- The end of `association_loop`: both schedulers are discarded and the channel's
length is read. -/
def count (s : AssociationState) : AssociationState :=
  let (queued, upstream) := s.upstream.discardAll
  let (queued', downstream) := s.downstream.discardAll
  { s with upstream, downstream, phase := .counted (satAdd queued queued') s.channel }

/-- The final record. The count goes into it after an administrative stop only. -/
def close (s : AssociationState) (queued : Nat) (waiting : List Ingress) : AssociationState :=
  let s := { s with phase := .recorded }
  let s := if s.administrativeCancel then
      { s with
        record := { s.record with
          administrativeDiscards := satAdd s.record.administrativeDiscards (queued + waiting.length) }
        discarded := waiting
        otherDiscards := s.otherDiscards + queued }
    else s
  { s with record := s.record.updateEvidence s.upstream s.downstream }

/-! ## The step -/

/-- The slot loses the association, and `stop_association` begins. -/
def takeSlot (s : AssociationState) (slot : AssociationSlot) (administrative : Bool) : AssociationState :=
  { s with slot, stop := some (.marking administrative) }

/-- One access to what the tasks share. -/
def step (s : AssociationState) : AssociationOp → AssociationState
  | .publish kept =>
    if s.slot = .starting then
      if kept then { s with slot := .active } else { s with slot := .drained, stop := some .cancelling }
    else s
  | .receive payload now => s.receive payload now
  | .announce i policy granted now => s.announce i policy granted now
  | .trySend i => s.trySend i
  | .noteSent i now => s.noteSent i now
  | .retract i => s.retract i
  | .noteRefused i now => s.noteRefused i now
  | .emit now io =>
    match s.phase with
    | .top => s.emitReady now io
    | _ => s
  | .wake event =>
    match s.phase with
    | .parked => s.wake event
    | _ => s
  | .retire =>
    match s.phase with
    | .taken item => { s with pendingIngress := s.pendingIngress - 1, phase := .admitting item }
    | _ => s
  | .admission now policy io => s.admission now policy io
  | .note now =>
    match s.phase with
    | .noting => { s with dirty := true, phase := .bottom, record := { s.record with lastActivity := now } }
    | _ => s
  | .update =>
    match s.phase with
    | .bottom =>
      { s with
        phase := .top
        record := if s.dirty then s.record.updateEvidence s.upstream s.downstream else s.record }
    | _ => s
  | .count =>
    match s.phase with
    | .broken => s.count
    | _ => s
  | .close =>
    match s.phase with
    | .counted queued waiting => s.close queued waiting
    | _ => s
  | .finish =>
    match s.phase with
    | .recorded => { s with receiverOpen := false, channel := [], phase := .ended }
    | _ => s
  | .check now idleTimeout =>
    if s.slot = .active ∧ s.record.expired s.pendingIngress now idleTimeout then { s with reapers := s.reapers + 1 }
    else s
  | .reap =>
    if 0 < s.reapers then
      let s := { s with reapers := s.reapers - 1 }
      if s.slot = .active then s.takeSlot .reaped false else s
    else s
  | .remove => if s.slot = .active then s.takeSlot .removed true else s
  | .mark =>
    match s.stop with
    | some (.marking administrative) =>
      { s with administrativeCancel := s.administrativeCancel || administrative, stop := some .cancelling }
    | _ => s
  | .cancel =>
    match s.stop with
    | some .cancelling => { s with cancelled := true, stop := none }
    | _ => s

/-- The association as `publish_association` spawns its worker. -/
def start (capacity : Nat) (upstream downstream : DatagramDirectionEngine) (now : Nat) : AssociationState where
  slot := .starting
  capacity
  channel := []
  receiverOpen := true
  pendingIngress := 0
  administrativeCancel := false
  cancelled := false
  record := { lastActivity := now }
  phase := .top
  upstream
  downstream
  dirty := false
  resolved := []
  announced := []
  delivered := []
  refused := []
  retracted := []
  reapers := 0
  stop := none
  accepted := []
  admitted := []
  discarded := []
  otherDiscards := 0

end AssociationState

end Eggchaos
