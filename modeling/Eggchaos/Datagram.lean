import Eggchaos.DatagramPlan
import Eggchaos.Lib.Io
import Mathlib.Data.List.Sort
/-!
# The datagram direction engine

`DatagramDirectionEngine` of `datagram.rs` as state passing. A datagram enters
with `admitDatagram`: it runs through the fault stages, which may lose, multiply,
corrupt or delay it, and every surviving candidate is emitted at once, queued
for its release or dropped for want of room. `takeReady` pops what is due.

The source keeps the queue in a `BinaryHeap` of reversed candidates, whose pop
returns the least by `(at, ordinal, copy)`; here it is the list of candidates in
pop order, and `push` inserts. The release `now + delay` is an instant of the
source's clock, so both are naturals.
-/

namespace Eggchaos
open Lib

/-- The six activation counters, by `DatagramFaultKind.typeIndex`. -/
abbrev DatagramActivations := Fin 6 → Nat

structure DatagramEvidence where
  admittedDatagrams : Nat := 0
  admittedBytes : Nat := 0
  emittedDatagrams : Nat := 0
  emittedBytes : Nat := 0
  configuredLoss : Nat := 0
  queueOverflow : Nat := 0
  oversizeDatagrams : Nat := 0
  duplicatedCopies : Nat := 0
  corruptedCandidates : Nat := 0
  reorderActivations : Nat := 0
  queuedDatagrams : Nat := 0
  queuedBytes : Nat := 0
  highWaterDatagrams : Nat := 0
  highWaterBytes : Nat := 0
  faultActivations : DatagramActivations := fun _ => 0
  injectedDelayNanos : Nat := 0
  bandwidthDelayNanos : Nat := 0
  lastGeneration : Nat := 0
  lastSeedNamespace : UInt64 := 0

/-- A datagram ready for transport emission. -/
structure DatagramScheduled where
  payload : List Byte
  ingressOrdinal : Nat
  copyIndex : Nat
  generation : Nat
deriving DecidableEq, Repr

/-- The order `admit` sorts immediate items by, as "not after". -/
def DatagramScheduled.le (a b : DatagramScheduled) : Prop :=
  a.ingressOrdinal < b.ingressOrdinal ∨ (a.ingressOrdinal = b.ingressOrdinal ∧ a.copyIndex ≤ b.copyIndex)

instance : DecidableRel DatagramScheduled.le :=
  fun a b => inferInstanceAs (Decidable (a.ingressOrdinal < b.ingressOrdinal ∨ (_ ∧ _)))

/-- A queued datagram and the instant it may leave. -/
structure Candidate where
  at_ : Nat
  ordinal : Nat
  copy : Nat
  payload : List Byte
  generation : Nat
deriving DecidableEq, Repr

/-- `Candidate::cmp` by release, ordinal and copy, as "not after". -/
def Candidate.le (a b : Candidate) : Prop :=
  a.at_ < b.at_ ∨ (a.at_ = b.at_ ∧ (a.ordinal < b.ordinal ∨ (a.ordinal = b.ordinal ∧ a.copy ≤ b.copy)))

instance : DecidableRel Candidate.le :=
  fun a b => inferInstanceAs (Decidable (a.at_ < b.at_ ∨ (a.at_ = b.at_ ∧ (_ ∨ (_ ∧ _)))))

def Candidate.scheduled (c : Candidate) : DatagramScheduled := ⟨c.payload, c.ordinal, c.copy, c.generation⟩

/-- The token bucket of one bandwidth stage. -/
structure Bucket where
  tokens : Nat
  updated : Nat
deriving DecidableEq, Repr

inductive DatagramAdmission where
  | consumed
  | immediate (items : List DatagramScheduled)
  | queued
deriving DecidableEq, Repr

structure DatagramDirectionEngine where
  limits : DatagramQueueLimits
  proxy : String
  association : UInt64
  direction : Direction
  ordinal : Nat
  queue : List Candidate
  evidence : DatagramEvidence
  buckets : String → Option Bucket
  bucketsGeneration : Nat

/-! ## Evidence -/

namespace DatagramEvidence

/-- One candidate of `size` bytes enters the scheduler. -/
def noteQueued (ev : DatagramEvidence) (size : Nat) : DatagramEvidence :=
  { ev with
    queuedDatagrams := satAdd ev.queuedDatagrams 1
    queuedBytes := satAdd ev.queuedBytes size
    highWaterDatagrams := max ev.highWaterDatagrams (satAdd ev.queuedDatagrams 1)
    highWaterBytes := max ev.highWaterBytes (satAdd ev.queuedBytes size) }

/-- One candidate of `size` bytes leaves it for the transport. -/
def noteEmitted (ev : DatagramEvidence) (size : Nat) : DatagramEvidence :=
  { ev with
    queuedDatagrams := ev.queuedDatagrams - 1
    queuedBytes := ev.queuedBytes - size
    emittedDatagrams := satAdd ev.emittedDatagrams 1
    emittedBytes := satAdd ev.emittedBytes size }

def noteActivated (ev : DatagramEvidence) (kind : DatagramFaultKind) : DatagramEvidence :=
  { ev with
    faultActivations := fun i =>
      if i = kind.typeIndex then satAdd (ev.faultActivations i) 1 else ev.faultActivations i }

def noteOverflow (ev : DatagramEvidence) : DatagramEvidence :=
  { ev with queueOverflow := satAdd ev.queueOverflow 1 }

/-- The delay a stage added: bandwidth pacing and the other delays are counted
apart, and a reorder hold is counted as such too. -/
def noteDelayed (ev : DatagramEvidence) (kind : DatagramFaultKind) (added : Nat) : DatagramEvidence :=
  match kind with
  | .bandwidth _ _ => { ev with bandwidthDelayNanos := satAdd128 ev.bandwidthDelayNanos added }
  | .reorder _ => { ev with
      injectedDelayNanos := satAdd128 ev.injectedDelayNanos added
      reorderActivations := satAdd ev.reorderActivations 1 }
  | _ => { ev with injectedDelayNanos := satAdd128 ev.injectedDelayNanos added }

end DatagramEvidence

/-! ## Fault decisions -/

/-- Symmetric jitter around a base delay, clipped at zero and at `u64::MAX`. -/
def jittered (delay jitter : Nat) (rng : DeterministicRng) : Nat :=
  if jitter = 0 then delay
  else
    let range := min jitter u64Max
    let signed : Int := (rng.below (satAdd (satMul range 2) 1)).1 - range
    min (delay + signed).toNat u64Max

/-- `fault_delay`; `admit` asks it about delay and reorder stages only. -/
def faultDelay (kind : DatagramFaultKind) (rng : DeterministicRng) : Nat :=
  match kind with
  | .delay delay jitter => jittered delay jitter rng
  | .reorder hold => hold
  | .bandwidth bytesPerSecond _ =>
    (roundHalfEven (roundToBinary64 (1 / roundToBinary64 bytesPerSecond.get) * 10 ^ 9)).toNat
  | .loss | .duplicate _ | .payloadCorrupt _ => 0

/-- One turn of the corruption loop: swap position `i` with a drawn later one and
flip a drawn bit there. -/
def corruptAt (i : Nat) (v : List Byte) (rng : DeterministicRng) : List Byte × DeterministicRng :=
  let (offset, rng) := rng.below (v.length - i)
  let selected := i + offset
  let v := (v.set i (v.getD selected 0)).set selected (v.getD i 0)
  let (bit, rng) := rng.below 8
  (v.set i (v.getD i 0 ^^^ (1 <<< bit.toUInt8)), rng)

/-- The payload after `PayloadCorrupt { bytes: count }`. -/
def corrupted (count : Nat) (bytes : List Byte) (rng : DeterministicRng) : List Byte :=
  ((List.range (min count bytes.length)).foldl (fun (v, rng) i => corruptAt i v rng) (bytes, rng)).1

/-- A candidate on its way through the stages. -/
structure Staged where
  copy : Nat
  bytes : List Byte
  delay : Nat
deriving DecidableEq, Repr

namespace DatagramDirectionEngine

/-- `DatagramDirectionEngine::new`. -/
def new (limits : DatagramQueueLimits) (proxy : String) (association : UInt64) (direction : Direction) :
    Except String DatagramDirectionEngine :=
  match limits.validate with
  | .error e => .error e
  | .ok limits => .ok {
      limits
      proxy
      association
      direction
      ordinal := 0
      queue := []
      evidence := {}
      buckets := fun _ => none
      bucketsGeneration := 0 }

/-- The activation draw of one stage for one copy, and the stream it leaves. -/
def activates (e : DatagramDirectionEngine) (policy : PublishedDatagramPolicy) (ordinal stage : Nat)
    (fault : DatagramFaultSpec) (copy : Nat) : Bool × DeterministicRng :=
  let seed := deriveDatagramSeed (policy.seedNamespace ^^^ copy.toUInt64) e.proxy
    (e.association ^^^ rotateLeft ordinal.toUInt64 9 ^^^ stage.toUInt64) e.direction fault.id
  (DeterministicRng.new seed).bernoulli fault.probability.get

/-- `bandwidth_delay`: pace `bytes` through the stage's bucket. -/
def bandwidthDelay (e : DatagramDirectionEngine) (id : String) (now bytes rate burst : Nat) :
    Nat × DatagramDirectionEngine :=
  let bucket := (e.buckets id).getD ⟨burst, now⟩
  let virtualNow := max now bucket.updated
  let elapsed := virtualNow - bucket.updated
  let refill := satMul128 elapsed rate / 1000000000
  let tokens := min (satAdd bucket.tokens (min refill u64Max)) burst
  let put := fun b : Bucket => { e with buckets := fun key => if key = id then some b else e.buckets key }
  if bytes ≤ tokens then (virtualNow - now, put ⟨tokens - bytes, virtualNow⟩)
  else
    let deficit := bytes - tokens
    let nanos := satAdd128 (satMul128 deficit 1000000000) (rate - 1) / rate
    let service := min nanos u64Max
    (durationSatAdd (virtualNow - now) service, put ⟨0, (checkedAdd virtualNow service).getD virtualNow⟩)

/-! ## Admission -/

/-- The first `n` copies after `copy` of a duplicated candidate; `u16` copy
indices saturate. -/
def duplicates (copy : Nat) : Nat → List Nat
  | 0 => []
  | n + 1 => copy :: duplicates (min (copy + 1) 65535) n

/-- The copy index after `n` of them. -/
def indexAfter (copy : Nat) : Nat → Nat
  | 0 => copy
  | n + 1 => indexAfter (min (copy + 1) 65535) n

/-- What an activated stage makes of a candidate: its outputs, the engine after
it and the next copy index. -/
def apply (e : DatagramDirectionEngine) (now : Nat) (fault : DatagramFaultSpec) (rng : DeterministicRng)
    (nextCopy : Nat) (c : Staged) : List Staged × DatagramDirectionEngine × Nat :=
  let e := { e with evidence := e.evidence.noteActivated fault.kind }
  match fault.kind with
  | .loss =>
    ([], { e with evidence := { e.evidence with configuredLoss := satAdd e.evidence.configuredLoss 1 } }, nextCopy)
  | .duplicate additionalCopies =>
    let copies := duplicates nextCopy additionalCopies.toNat
    -- The counter advances by one for each copy, and saturates.
    let evidence := { e.evidence with
      duplicatedCopies := copies.foldl (fun count _ => satAdd count 1) e.evidence.duplicatedCopies }
    (c :: copies.map (fun copy => { c with copy }), { e with evidence },
      indexAfter nextCopy additionalCopies.toNat)
  | .payloadCorrupt count =>
    if c.bytes = [] then ([c], e, nextCopy)
    else
      let evidence := { e.evidence with corruptedCandidates := satAdd e.evidence.corruptedCandidates 1 }
      ([{ c with bytes := corrupted count.get c.bytes rng }], { e with evidence }, nextCopy)
  | .bandwidth bytesPerSecond burstBytes =>
    let (added, e) := e.bandwidthDelay fault.id.value now c.bytes.length bytesPerSecond.get burstBytes.get
    ([{ c with delay := durationSatAdd c.delay added }],
      { e with evidence := e.evidence.noteDelayed fault.kind added }, nextCopy)
  | .delay _ _ | .reorder _ =>
    let added := faultDelay fault.kind rng
    ([{ c with delay := durationSatAdd c.delay added }],
      { e with evidence := e.evidence.noteDelayed fault.kind added }, nextCopy)

/-- One stage over one candidate. -/
def runCandidate (e : DatagramDirectionEngine) (now : Nat) (policy : PublishedDatagramPolicy) (ordinal stage : Nat)
    (fault : DatagramFaultSpec) (nextCopy : Nat) (c : Staged) : List Staged × DatagramDirectionEngine × Nat :=
  let (active, rng) := e.activates policy ordinal stage fault c.copy
  if active then e.apply now fault rng nextCopy c else ([c], e, nextCopy)

/-- One stage over all candidates, in order. -/
def runStage (now : Nat) (policy : PublishedDatagramPolicy) (ordinal stage : Nat) (fault : DatagramFaultSpec) :
    DatagramDirectionEngine → Nat → List Staged → List Staged × DatagramDirectionEngine × Nat
  | e, nextCopy, [] => ([], e, nextCopy)
  | e, nextCopy, c :: cs =>
    let (out, e, nextCopy) := e.runCandidate now policy ordinal stage fault nextCopy c
    let (outs, e, nextCopy) := runStage now policy ordinal stage fault e nextCopy cs
    (out ++ outs, e, nextCopy)

/-- The stages of a plan from index `stage` on. -/
def runStages (now : Nat) (policy : PublishedDatagramPolicy) (ordinal : Nat) :
    Nat → List DatagramFaultSpec → DatagramDirectionEngine → Nat → List Staged → List Staged × DatagramDirectionEngine
  | _, [], e, _, cs => (cs, e)
  | stage, fault :: faults, e, nextCopy, cs =>
    let (cs, e, nextCopy) := runStage now policy ordinal stage fault e nextCopy cs
    runStages now policy ordinal (stage + 1) faults e nextCopy cs

def fits (e : DatagramDirectionEngine) (bytes : Nat) : Bool :=
  decide (e.queue.length < e.limits.maxQueuedDatagrams.get) &&
    decide (satAdd e.evidence.queuedBytes bytes ≤ e.limits.maxQueuedBytes.get)

def fitsAll (e : DatagramDirectionEngine) (datagrams bytes : Nat) : Bool :=
  decide (satAdd e.queue.length datagrams ≤ e.limits.maxQueuedDatagrams.get) &&
    decide (satAdd e.evidence.queuedBytes bytes ≤ e.limits.maxQueuedBytes.get)

/-- `BinaryHeap::push`, before the first candidate that has to leave later. -/
def push (c : Candidate) : List Candidate → List Candidate
  | [] => [c]
  | d :: ds => if d.le c then d :: push c ds else c :: d :: ds

def enqueue (e : DatagramDirectionEngine) (at_ ordinal copy : Nat) (payload : List Byte) (generation : Nat) :
    DatagramDirectionEngine :=
  { e with
    evidence := e.evidence.noteQueued payload.length
    queue := push ⟨at_, ordinal, copy, payload, generation⟩ e.queue }

/-- `emit_immediate`: into the scheduler's counters and out again. -/
def emitImmediate (e : DatagramDirectionEngine) (ordinal : Nat) (payload : List Byte) (generation copy : Nat) :
    DatagramScheduled × DatagramDirectionEngine :=
  (⟨payload, ordinal, copy, generation⟩,
    { e with evidence := (e.evidence.noteQueued payload.length).noteEmitted payload.length })

/-- The immediate emission of all candidates, in pipeline order. -/
def emitAll (ordinal generation : Nat) :
    DatagramDirectionEngine → List Staged → List DatagramScheduled × DatagramDirectionEngine
  | e, [] => ([], e)
  | e, c :: cs =>
    let (item, e) := e.emitImmediate ordinal c.bytes generation c.copy
    let (items, e) := emitAll ordinal generation e cs
    (item :: items, e)

/-- The queueing loop of `admit`: a candidate without room is dropped and
counted. It returns whether any was queued. -/
def queueAll (now ordinal generation : Nat) :
    DatagramDirectionEngine → List Staged → Bool × DatagramDirectionEngine
  | e, [] => (false, e)
  | e, c :: cs =>
    if e.limits.maxQueuedDatagrams.get ≤ e.queue.length ∨
        e.limits.maxQueuedBytes.get < satAdd e.evidence.queuedBytes c.bytes.length then
      queueAll now ordinal generation { e with evidence := e.evidence.noteOverflow } cs
    else
      (true, (queueAll now ordinal generation (e.enqueue (now + c.delay) ordinal c.copy c.bytes generation) cs).2)

/-- The bytes of all candidates; the source folds `checked_add` over them. -/
def totalBytes (cs : List Staged) : Option Nat :=
  let total := (cs.map (·.bytes.length)).sum
  if total ≤ u64Max then some total else none

/-- `sort_by_key` by ordinal and copy index, which is stable. -/
def sortItems (items : List DatagramScheduled) : List DatagramScheduled := items.insertionSort DatagramScheduled.le

/-- All candidates may leave now and the scheduler is empty and has room for
them together. -/
def isImmediate (e : DatagramDirectionEngine) (cs : List Staged) : Bool :=
  !cs.isEmpty && cs.all (·.delay = 0) && e.queue.isEmpty &&
    (match totalBytes cs with
      | some bytes => e.fitsAll cs.length bytes
      | none => false)

/-- What `admit` does with the candidates of the last stage. -/
def settle (e : DatagramDirectionEngine) (now ordinal generation : Nat) (cs : List Staged) :
    DatagramAdmission × DatagramDirectionEngine :=
  if e.isImmediate cs then
    let (items, e) := emitAll ordinal generation e cs
    (.immediate (sortItems items), e)
  else
    let (queuedAny, e) := queueAll now ordinal generation e cs
    (if queuedAny then .queued else .consumed, e)

/-- The ordinal and the counters every admission takes. -/
def count (e : DatagramDirectionEngine) (payload : List Byte) : DatagramDirectionEngine :=
  { e with
    ordinal := satAdd e.ordinal 1
    evidence := { e.evidence with
      admittedDatagrams := satAdd e.evidence.admittedDatagrams 1
      admittedBytes := satAdd e.evidence.admittedBytes payload.length } }

/-- Adopt the policy of the datagram: on a new generation the buckets of
removed stages go. -/
def adopt (e : DatagramDirectionEngine) (policy : PublishedDatagramPolicy) : DatagramDirectionEngine :=
  let e := { e with evidence := { e.evidence with
    lastGeneration := policy.generation
    lastSeedNamespace := policy.seedNamespace } }
  if policy.generation ≠ e.bucketsGeneration then
    { e with
      buckets := fun id => if policy.plan.faults.any (·.id.value = id) then e.buckets id else none
      bucketsGeneration := policy.generation }
  else e

/-- The candidates of an admitted payload after all stages. -/
def candidates (e : DatagramDirectionEngine) (now : Nat) (payload : List Byte) (policy : PublishedDatagramPolicy)
    (ordinal : Nat) : List Staged × DatagramDirectionEngine :=
  runStages now policy ordinal 0 policy.plan.faults e 1 [⟨0, payload, 0⟩]

/-- `DatagramDirectionEngine::admit`. -/
def admitDatagram (e : DatagramDirectionEngine) (now : Nat) (payload : List Byte) (policy : PublishedDatagramPolicy) :
    DatagramAdmission × DatagramDirectionEngine :=
  let ordinal := e.ordinal
  let e := e.count payload
  if e.limits.maxDatagramBytes.get < payload.length then
    (.consumed, { e with evidence := { e.evidence with
      oversizeDatagrams := satAdd e.evidence.oversizeDatagrams 1 } })
  else
    let e := e.adopt policy
    if policy.plan.faults.isEmpty then
      if e.queue.isEmpty && e.fits payload.length then
        let (item, e) := e.emitImmediate ordinal payload policy.generation 0
        (.immediate [item], e)
      else if e.fits payload.length then
        (.queued, e.enqueue now ordinal 0 payload policy.generation)
      else (.consumed, { e with evidence := e.evidence.noteOverflow })
    else
      let (cs, e) := e.candidates now payload policy ordinal
      e.settle now ordinal policy.generation cs

/-! ## Release -/

/-- Pop the due candidates, in order. -/
def drain (now : Nat) :
    List Candidate → DatagramEvidence → List DatagramScheduled × List Candidate × DatagramEvidence
  | [], ev => ([], [], ev)
  | c :: cs, ev =>
    if c.at_ ≤ now then
      let (items, rest, ev) := drain now cs (ev.noteEmitted c.payload.length)
      (c.scheduled :: items, rest, ev)
    else ([], c :: cs, ev)

/-- `DatagramDirectionEngine::take_ready`. -/
def takeReady (e : DatagramDirectionEngine) (now : Nat) : List DatagramScheduled × DatagramDirectionEngine :=
  let (items, queue, evidence) := drain now e.queue e.evidence
  (items, { e with queue, evidence })

/-- `DatagramDirectionEngine::discard_all`. -/
def discardAll (e : DatagramDirectionEngine) : Nat × DatagramDirectionEngine :=
  (e.queue.length,
    { e with queue := [], evidence := { e.evidence with queuedDatagrams := 0, queuedBytes := 0 } })

end DatagramDirectionEngine

end Eggchaos
