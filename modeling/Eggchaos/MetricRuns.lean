import Eggchaos.Lib.Interleave
import Eggchaos.Metrics
import Eggchaos.Outcomes
/-!
# Metrics of concurrent connections

What `accept_connection`, `record_close` and `purge_proxy_connections` do to the
metrics and the history: additions to atomic counters, one locked change of the
tables, one locked append to the history. A connection that is accepted, refused
or closed is a program of such steps, and the programs interleave in any way.

At every moment a counter and what the programs have still to add to it make the
total (`MetricState.metrics_balance`). Once no program is under way the counters and
the tables are what the connections add up to, and as long as the history has
dropped nothing it tells the same (`MetricState.metrics_reconcile`).
-/

namespace Eggchaos
open Lib
open Function (update)

/-- The atomic counters of `MetricsCounters` that connections change. -/
inductive MetricCounter where
  | accepted
  | completed
  | rejected
  | outcomes (outcomeClass : Fin 8)
  | gracefulRequests
  | hardResetRequests
  | resetApplied
  | resetUnsupported
  | resetFailed
  | bytesAccepted
  | bytesForwarded
  | bytesDiscarded
  | transitions
deriving DecidableEq, Repr

def outcomeClass : ConnectionOutcome → Fin 8
  | .relayCompleted => 0
  | .connectFailed _ => 1
  | .killedByOperator => 2
  | .serviceShutdown => 3
  | .proxyRemoved => 4
  | .gracefulTermination _ => 5
  | .hardReset _ _ => 6
  | .relayError _ => 7

/-- What a stream's evidence handle reads at the close. -/
structure DirectionReading where
  bytes : Slots
  streamLoss : Slots
  activations : Vector UInt64 7
  transitions : UInt64
deriving DecidableEq, Repr

structure EvidenceReading where
  upstream : DirectionReading
  downstream : DirectionReading
deriving DecidableEq, Repr

/-- The fields of a `ConnectionSnapshot` that the metrics read. -/
structure CountedSnapshot where
  id : Nat
  proxy : String
  upstreamBytes : Slots := (0, 0, 0)
  downstreamBytes : Slots := (0, 0, 0)
  upstreamStreamLoss : Slots := (0, 0, 0)
  downstreamStreamLoss : Slots := (0, 0, 0)
deriving DecidableEq, Repr

def mergeEvidence (snapshot : CountedSnapshot) : Option EvidenceReading → CountedSnapshot
  | none => snapshot
  | some record =>
    { snapshot with
      upstreamBytes := record.upstream.bytes
      downstreamBytes := record.downstream.bytes
      upstreamStreamLoss := record.upstream.streamLoss
      downstreamStreamLoss := record.downstream.streamLoss }

/-- A `ClosedConnection`, with the termination requests of its directions. -/
structure HistoryRecord where
  snapshot : CountedSnapshot
  outcome : ConnectionOutcome
  upstreamTermination : Option TerminationRequest
  downstreamTermination : Option TerminationRequest
  detail : Option String
deriving DecidableEq, Repr

/-- A connection that `take_connection` has handed to its close or its purge. -/
structure TakenConnection where
  snapshot : CountedSnapshot
  evidence : Option EvidenceReading
  outcome : ConnectionOutcome
  upstreamTermination : Option TerminationRequest
  downstreamTermination : Option TerminationRequest
  detail : Option String
deriving DecidableEq, Repr

inductive MetricStep where
  /-- `fetch_add`. -/
  | add (addition : MetricCounter × UInt64)
  /-- Under the lock of the tables. -/
  | tables (ops : List TableOp)
  /-- Under the lock of the history. -/
  | push (closed : HistoryRecord)
deriving DecidableEq, Repr

/-! ## The programs -/

/-- A `fetch_add` and its counter. -/
abbrev Addition := MetricCounter × UInt64

def countTermination : Option TerminationRequest → List Addition
  | some .graceful => [(.gracefulRequests, 1)]
  | some .hardReset => [(.hardResetRequests, 1)]
  | none => []

def countReset : ResetResult → Addition
  | .applied => (.resetApplied, 1)
  | .unsupported _ => (.resetUnsupported, 1)
  | .failed _ => (.resetFailed, 1)

/-- The reset results of both sockets. -/
def resetResults : ConnectionOutcome → List ResetResult
  | .hardReset client upstream => [client, upstream]
  | _ => []

def countTransitions : Option EvidenceReading → List Addition
  | some record => [(.transitions, record.upstream.transitions + record.downstream.transitions)]
  | none => []

def countBytes (snapshot : CountedSnapshot) : List Addition :=
  [(.bytesAccepted, snapshot.upstreamBytes.1 + snapshot.downstreamBytes.1),
    (.bytesForwarded, snapshot.upstreamBytes.2.1 + snapshot.downstreamBytes.2.1),
    (.bytesDiscarded, snapshot.upstreamBytes.2.2 + snapshot.downstreamBytes.2.2)]

/-- What is recorded under the lock; without evidence nothing was activated. -/
def closeTables (snapshot : CountedSnapshot) (evidence : Option EvidenceReading) : List TableOp :=
  let up := evidence.elim (.replicate 7 0) (·.upstream.activations)
  let down := evidence.elim (.replicate 7 0) (·.downstream.activations)
  [.complete snapshot.proxy snapshot.upstreamBytes snapshot.downstreamBytes,
    .activations snapshot.proxy "upstream" up,
    .activations snapshot.proxy "downstream" down,
    .streamLoss snapshot.proxy snapshot.upstreamStreamLoss snapshot.downstreamStreamLoss]

def aggregateCloseMetrics (snapshot : CountedSnapshot) (evidence : Option EvidenceReading)
    (outcome : ConnectionOutcome) (termination : Option TerminationRequest) : List MetricStep :=
  ((.outcomes (outcomeClass outcome), 1) :: countTermination termination ++ (resetResults outcome).map countReset ++
    countTransitions evidence ++ countBytes snapshot).map .add ++ [.tables (closeTables snapshot evidence)]

namespace TakenConnection
variable (c : TakenConnection)

/-- The connection as its history keeps it. -/
def record : HistoryRecord :=
  ⟨mergeEvidence c.snapshot c.evidence, c.outcome, c.upstreamTermination, c.downstreamTermination, c.detail⟩

/-- `record_close` and a purge's turn, once the connection is taken. -/
def close (limit : Nat) : List MetricStep :=
  aggregateCloseMetrics (mergeEvidence c.snapshot c.evidence) c.evidence c.outcome
    (c.upstreamTermination.or c.downstreamTermination) ++
  [.add (.completed, 1)] ++ if limit = 0 then [] else [.push c.record]

end TakenConnection

/-- A connection's way through the metrics. -/
inductive MetricTask where
  | accept (proxy : String)
  | reject
  | close (taken : TakenConnection)
deriving DecidableEq, Repr

/-- The steps a connection takes; `limit` bounds the history. -/
def MetricTask.steps (limit : Nat) : MetricTask → List MetricStep
  | .accept proxy => [.add (.accepted, 1), .tables [.accept proxy]]
  | .reject => [.add (.rejected, 1)]
  | .close taken => taken.close limit

/-! ## The shared state -/

structure MetricState where
  counters : MetricCounter → UInt64
  tables : MetricTables
  history : List HistoryRecord

namespace MetricState

def empty : MetricState := ⟨fun _ => 0, .empty, []⟩

def step (limit : Nat) (s : MetricState) : MetricStep → MetricState
  | .add (counter, n) => { s with counters := update s.counters counter (s.counters counter + n) }
  | .tables ops => { s with tables := run MetricTables.step s.tables ops }
  | .push closed => { s with history := s.history.drop (s.history.length + 1 - limit) ++ [closed] }

end MetricState

/-! ## What a program adds -/

/-- What an addition is to a counter. -/
def Addition.to (counter : MetricCounter) (a : Addition) : Nat := if a.1 = counter then a.2.toNat else 0

namespace MetricStep

def additions : MetricStep → List Addition
  | .add a => [a]
  | .tables _ | .push _ => []

def tableOps : MetricStep → List TableOp
  | .tables ops => ops
  | .add _ | .push _ => []

def pushed : MetricStep → List HistoryRecord
  | .push closed => [closed]
  | .add _ | .tables _ => []

theorem additions_add (l : List Addition) : (l.map MetricStep.add).flatMap additions = l := by
  induction l with
  | nil => rfl
  | cons a l ih => rw [List.map_cons, List.flatMap_cons, ih]; rfl

theorem tableOps_add (l : List Addition) : (l.map MetricStep.add).flatMap tableOps = [] := by
  induction l with
  | nil => rfl
  | cons a l ih => rw [List.map_cons, List.flatMap_cons, ih]; rfl

theorem pushed_add (l : List Addition) : (l.map MetricStep.add).flatMap pushed = [] := by
  induction l with
  | nil => rfl
  | cons a l ih => rw [List.map_cons, List.flatMap_cons, ih]; rfl

end MetricStep

namespace HistoryRecord
variable (r : HistoryRecord)

def termination : Option TerminationRequest := r.upstreamTermination.or r.downstreamTermination

/-- What a closed connection counts as. -/
def adds : MetricCounter → Nat
  | .completed => 1
  | .outcomes k => if outcomeClass r.outcome = k then 1 else 0
  | .gracefulRequests => if r.termination = some .graceful then 1 else 0
  | .hardResetRequests => if r.termination = some .hardReset then 1 else 0
  | .resetApplied => (resetResults r.outcome).countP (· matches .applied)
  | .resetUnsupported => (resetResults r.outcome).countP (· matches .unsupported _)
  | .resetFailed => (resetResults r.outcome).countP (· matches .failed _)
  | .bytesAccepted => r.snapshot.upstreamBytes.1.toNat + r.snapshot.downstreamBytes.1.toNat
  | .bytesForwarded => r.snapshot.upstreamBytes.2.1.toNat + r.snapshot.downstreamBytes.2.1.toNat
  | .bytesDiscarded => r.snapshot.upstreamBytes.2.2.toNat + r.snapshot.downstreamBytes.2.2.toNat
  | .accepted | .rejected | .transitions => 0

end HistoryRecord

namespace MetricTask

/-- What a connection adds to a counter. -/
def adds (counter : MetricCounter) : MetricTask → Nat
  | .accept _ => if counter = .accepted then 1 else 0
  | .reject => if counter = .rejected then 1 else 0
  | .close taken =>
    if counter = .transitions then
      taken.evidence.elim 0 fun record => record.upstream.transitions.toNat + record.downstream.transitions.toNat
    else taken.record.adds counter

def tableOps : MetricTask → List TableOp
  | .accept proxy => [.accept proxy]
  | .reject => []
  | .close taken => closeTables taken.record.snapshot taken.evidence

def record? : MetricTask → Option HistoryRecord
  | .close taken => some taken.record
  | .accept _ | .reject => none

variable (limit : Nat) (task : MetricTask)

theorem steps_tableOps : (task.steps limit).flatMap MetricStep.tableOps = task.tableOps := by
  cases task with
  | accept proxy => rfl
  | reject => rfl
  | close c =>
    have hpush : (if limit = 0 then [] else [MetricStep.push c.record]).flatMap MetricStep.tableOps = [] := by
      split <;> rfl
    simp only [steps, TakenConnection.close, aggregateCloseMetrics, List.flatMap_append, MetricStep.tableOps_add, hpush]
    rfl

/-- A history of no records takes none. -/
def kept (records : List HistoryRecord) : List HistoryRecord := if limit = 0 then [] else records

theorem steps_pushed : (task.steps limit).flatMap MetricStep.pushed = kept limit task.record?.toList := by
  cases task with
  | accept proxy => exact (ite_self []).symm
  | reject => exact (ite_self []).symm
  | close c =>
    simp only [steps, TakenConnection.close, aggregateCloseMetrics, List.flatMap_append, MetricStep.pushed_add, kept]
    split <;> rfl

theorem sum_countTermination (counter : MetricCounter) (termination : Option TerminationRequest) :
    ((countTermination termination).map (Addition.to counter)).sum =
      match counter with
      | .gracefulRequests => if termination = some .graceful then 1 else 0
      | .hardResetRequests => if termination = some .hardReset then 1 else 0
      | _ => 0 := by
  match termination with
  | none => cases counter <;> rfl
  | some .graceful => cases counter <;> rfl
  | some .hardReset => cases counter <;> rfl

theorem sum_countReset (counter : MetricCounter) (results : List ResetResult) :
    ((results.map countReset).map (Addition.to counter)).sum =
      match counter with
      | .resetApplied => results.countP (· matches .applied)
      | .resetUnsupported => results.countP (· matches .unsupported _)
      | .resetFailed => results.countP (· matches .failed _)
      | _ => 0 := by
  induction results with
  | nil => cases counter <;> rfl
  | cons result results ih =>
    rw [List.map_cons, List.map_cons, List.sum_cons, ih]
    cases counter <;> cases result <;> simp [countReset, Addition.to, Nat.add_comm]

theorem sum_countTransitions (counter : MetricCounter) (evidence : Option EvidenceReading) :
    ((countTransitions evidence).map (Addition.to counter)).sum =
      match counter with
      | .transitions => evidence.elim 0 fun record => (record.upstream.transitions + record.downstream.transitions).toNat
      | _ => 0 := by
  cases evidence <;> cases counter <;> rfl

theorem sum_countBytes (counter : MetricCounter) (snapshot : CountedSnapshot) :
    ((countBytes snapshot).map (Addition.to counter)).sum =
      match counter with
      | .bytesAccepted => (snapshot.upstreamBytes.1 + snapshot.downstreamBytes.1).toNat
      | .bytesForwarded => (snapshot.upstreamBytes.2.1 + snapshot.downstreamBytes.2.1).toNat
      | .bytesDiscarded => (snapshot.upstreamBytes.2.2 + snapshot.downstreamBytes.2.2).toNat
      | _ => 0 := by
  cases counter <;> simp [countBytes, Addition.to]

theorem ofNat_toNat_add (a b : UInt64) : UInt64.ofNat (a + b).toNat = UInt64.ofNat (a.toNat + b.toNat) := by
  rw [UInt64.ofNat_toNat, UInt64.ofNat_add, UInt64.ofNat_toNat, UInt64.ofNat_toNat]

/-- A connection's additions to a counter are, as words, what it adds. -/
theorem steps_additions (counter : MetricCounter) :
    UInt64.ofNat ((((task.steps limit).flatMap MetricStep.additions).map (Addition.to counter)).sum) =
      UInt64.ofNat (task.adds counter) := by
  cases task with
  | accept proxy => cases counter <;> rfl
  | reject => cases counter <;> rfl
  | close c =>
    have hpush : (if limit = 0 then [] else [MetricStep.push c.record]).flatMap MetricStep.additions = [] := by
      split <;> rfl
    simp only [steps, TakenConnection.close, aggregateCloseMetrics, List.flatMap_append, MetricStep.additions_add, hpush]
    simp only [List.map_append, List.sum_append, List.map_cons, List.sum_cons, List.cons_append, sum_countTermination,
      sum_countReset, sum_countTransitions, sum_countBytes]
    cases counter with
    | transitions =>
      cases hevidence : c.evidence with
      | none => simp [adds, Addition.to, MetricStep.additions, hevidence]
      | some record =>
        simp only [adds, hevidence, Option.elim_some, if_true]
        rw [← ofNat_toNat_add]
        simp [Addition.to, MetricStep.additions]
    | bytesAccepted | bytesForwarded | bytesDiscarded =>
      simp only [adds, HistoryRecord.adds, reduceCtorEq, if_false]
      rw [← ofNat_toNat_add]
      simp [Addition.to, MetricStep.additions, TakenConnection.record]
    | outcomes k =>
      by_cases hk : outcomeClass c.outcome = k <;>
        simp [adds, HistoryRecord.adds, Addition.to, MetricStep.additions, TakenConnection.record, hk]
    | _ =>
      simp [adds, HistoryRecord.adds, HistoryRecord.termination, Addition.to, MetricStep.additions,
        TakenConnection.record]

/-- The additions of all connections are, as words, what they add. -/
theorem sum_additions (counter : MetricCounter) (tasks : List MetricTask) :
    UInt64.ofNat (((((tasks.map (steps limit)).flatten).flatMap MetricStep.additions).map (Addition.to counter)).sum) =
      UInt64.ofNat ((tasks.map (adds counter)).sum) := by
  induction tasks with
  | nil => rfl
  | cons task tasks ih =>
    rw [List.map_cons, List.flatten_cons, List.flatMap_append, List.map_append, List.sum_append, List.map_cons,
      List.sum_cons, UInt64.ofNat_add, UInt64.ofNat_add, ih, steps_additions]

theorem all_tableOps (tasks : List MetricTask) :
    ((tasks.map (steps limit)).flatten).flatMap MetricStep.tableOps = tasks.flatMap tableOps := by
  induction tasks with
  | nil => rfl
  | cons task tasks ih => rw [List.map_cons, List.flatten_cons, List.flatMap_append, steps_tableOps, ih, List.flatMap_cons]

theorem all_pushed (tasks : List MetricTask) :
    ((tasks.map (steps limit)).flatten).flatMap MetricStep.pushed = kept limit (tasks.filterMap record?) := by
  induction tasks with
  | nil => exact (ite_self []).symm
  | cons task tasks ih =>
    rw [List.map_cons, List.flatten_cons, List.flatMap_append, steps_pushed, ih, List.filterMap_cons]
    unfold kept
    split
    · rfl
    · cases task.record? <;> rfl

end MetricTask

/-! ## Runs -/

namespace PerProxyMetrics

/-- The order of the records does not matter to their total. -/
theorem total_perm {ops ops' : List TableOp} (h : ops.Perm ops') : total ops = total ops' := by
  simp only [total, h.countP_eq, Slots.sum_perm ((h.filterMap TableOp.completed?).map _),
    Slots.sum_perm ((h.filterMap TableOp.lost?).map _)]

end PerProxyMetrics

namespace MetricState

theorem counters_run (limit : Nat) (s : MetricState) (steps : List MetricStep) (counter : MetricCounter) :
    (run (step limit) s steps).counters counter =
      s.counters counter + UInt64.ofNat (((steps.flatMap MetricStep.additions).map (Addition.to counter)).sum) := by
  induction steps generalizing s with
  | nil => simp
  | cons a steps ih =>
    rw [run_cons, ih, List.flatMap_cons, List.map_append, List.sum_append, UInt64.ofNat_add, ← UInt64.add_assoc]
    congr 1
    cases a with
    | tables ops => simp [step, MetricStep.additions]
    | push closed => simp [step, MetricStep.additions]
    | add addition =>
      obtain ⟨c, n⟩ := addition
      by_cases hc : c = counter
      · subst hc
        simp [step, MetricStep.additions, Addition.to]
      · simp [step, MetricStep.additions, Addition.to, hc, Function.update_of_ne (Ne.symm hc)]

theorem tables_run (limit : Nat) (s : MetricState) (steps : List MetricStep) :
    (run (step limit) s steps).tables = run MetricTables.step s.tables (steps.flatMap MetricStep.tableOps) := by
  induction steps generalizing s with
  | nil => rfl
  | cons a steps ih =>
    rw [run_cons, ih, List.flatMap_cons, run_append]
    cases a <;> rfl

theorem history_run {limit : Nat} (hlimit : limit ≠ 0) (steps : List MetricStep) :
    (run (step limit) empty steps).history = lastOf limit (steps.flatMap MetricStep.pushed) := by
  induction steps using List.reverseRecOn with
  | nil => simp [empty, lastOf]
  | append_singleton steps a ih =>
    rw [run_append, run_cons, run_nil, List.flatMap_append, List.flatMap_singleton]
    cases a with
    | add addition => rw [show MetricStep.pushed (.add addition) = [] from rfl, List.append_nil]; exact ih
    | tables ops => rw [show MetricStep.pushed (.tables ops) = [] from rfl, List.append_nil]; exact ih
    | push closed =>
      rw [show MetricStep.pushed (.push closed) = [closed] from rfl, ← lastOf_concat hlimit, ← ih]
      rfl

theorem history_unpushed (limit : Nat) (s : MetricState) (steps : List MetricStep) (h : steps.flatMap MetricStep.pushed = []) :
    (run (step limit) s steps).history = s.history := by
  induction steps generalizing s with
  | nil => rfl
  | cons a steps ih =>
    rw [List.flatMap_cons, List.append_eq_nil_iff] at h
    rw [run_cons, ih _ h.2]
    cases a with
    | add addition => rfl
    | tables ops => rfl
    | push closed => simp [MetricStep.pushed] at h

/-- The metrics are what these connections add up to. -/
structure Reconciled (tasks : List MetricTask) (s : MetricState) : Prop where
  counter : ∀ k, s.counters k = UInt64.ofNat ((tasks.map (MetricTask.adds k)).sum)
  bounded : s.tables.proxies.rows.length ≤ maxMetricProxies ∧ s.tables.activations.rows.length ≤ maxMetricActivations
  proxy : ∀ row ∈ s.tables.proxies.rows,
    row.2 = .total ((tasks.flatMap MetricTask.tableOps).filter (·.proxy = row.1))
  otherProxies : s.tables.proxies.overflow =
    .total ((tasks.flatMap MetricTask.tableOps).filter (·.proxy ∉ s.tables.proxies.keys))
  activation : ∀ row ∈ s.tables.activations.rows, row.2 =
    saturatedSum ((((tasks.flatMap MetricTask.tableOps).flatMap TableOp.activated).filter (·.1 = row.1)).map (·.2))
  otherActivations : s.tables.activations.overflow =
    saturatedSum ((((tasks.flatMap MetricTask.tableOps).flatMap TableOp.activated).filter
      (·.1 ∉ s.tables.activations.keys)).map (·.2))

variable {limit : Nat} {tasks : List MetricTask} {taken : List MetricStep} {left : List (List MetricStep)}

/-- At every moment a counter and what is still to be added to it make the total. -/
theorem counter_balance (h : Interleaved (tasks.map (MetricTask.steps limit)) taken left) (k : MetricCounter) :
    (run (step limit) empty taken).counters k +
        UInt64.ofNat (((left.flatten.flatMap MetricStep.additions).map (Addition.to k)).sum) =
      UInt64.ofNat ((tasks.map (MetricTask.adds k)).sum) := by
  have hperm := ((h.perm.flatMap_right MetricStep.additions).map (Addition.to k)).sum_eq
  rw [List.flatMap_append, List.map_append, List.sum_append] at hperm
  rw [counters_run, ← MetricTask.sum_additions limit, hperm, UInt64.ofNat_add]
  simp [empty]

theorem reconciled (h : Interleaved (tasks.map (MetricTask.steps limit)) taken left)
    (hdone : ∀ program ∈ left, program = []) : Reconciled tasks (run (step limit) empty taken) := by
  have hperm := h.perm_of_done hdone
  have hops : (tasks.flatMap MetricTask.tableOps).Perm (taken.flatMap MetricStep.tableOps) := by
    rw [← MetricTask.all_tableOps limit]
    exact hperm.flatMap_right _
  have ht := MetricTables.totals_run (taken.flatMap MetricStep.tableOps)
  have htables : (run (step limit) empty taken).tables =
      run MetricTables.step .empty (taken.flatMap MetricStep.tableOps) := tables_run limit empty taken
  refine ⟨?_, ?_, ?_, ?_, ?_, ?_⟩
  · intro k
    have hbalance := counter_balance h k
    rw [List.flatten_eq_nil_iff.2 hdone] at hbalance
    simpa using hbalance
  · rw [htables]
    constructor
    · have hlen := (MetricTables.proxies_hold (taken.flatMap MetricStep.tableOps)).length_eq
      omega
    · have hlen := (MetricTables.activations_hold (taken.flatMap MetricStep.tableOps)).length_eq
      omega
  · intro row hrow
    rw [htables] at hrow
    rw [ht.proxy row hrow]
    exact PerProxyMetrics.total_perm (hops.symm.filter _)
  · rw [htables, ht.otherProxies]
    exact PerProxyMetrics.total_perm (hops.symm.filter _)
  · intro row hrow
    rw [htables] at hrow
    rw [ht.activation row hrow]
    exact saturatedSum_perm (((hops.symm.flatMap_right _).filter _).map _)
  · rw [htables, ht.otherActivations]
    exact saturatedSum_perm (((hops.symm.flatMap_right _).filter _).map _)

/-- At every moment the history has the last `limit` of the records appended so far,
and those are closed connections, each at most once. -/
theorem history_latest (h : Interleaved (tasks.map (MetricTask.steps limit)) taken left) :
    (run (step limit) empty taken).history = lastOf limit (taken.flatMap MetricStep.pushed) ∧
      (taken.flatMap MetricStep.pushed ++ left.flatten.flatMap MetricStep.pushed).Perm
        (MetricTask.kept limit (tasks.filterMap MetricTask.record?)) := by
  have hperm := (h.perm.flatMap_right MetricStep.pushed).symm
  rw [List.flatMap_append, MetricTask.all_pushed] at hperm
  refine ⟨?_, hperm⟩
  by_cases hlimit : limit = 0
  · subst hlimit
    have hnone : taken.flatMap MetricStep.pushed = [] := by
      have hlen := hperm.length_eq
      rw [MetricTask.kept, if_pos rfl, List.length_append, List.length_nil] at hlen
      exact List.length_eq_zero_iff.1 (by omega)
    rw [hnone, history_unpushed _ _ _ hnone]
    rfl
  · exact history_run hlimit taken

/-- What of the totals a history tells. -/
structure Recorded (history : List HistoryRecord) (s : MetricState) : Prop where
  counter : ∀ k, k ≠ .accepted → k ≠ .rejected → k ≠ .transitions →
    s.counters k = UInt64.ofNat ((history.map (·.adds k)).sum)
  completed : ∀ row ∈ s.tables.proxies.rows,
    row.2.completed = UInt64.ofNat (history.countP (·.snapshot.proxy = row.1))
  bytes : ∀ row ∈ s.tables.proxies.rows,
    row.2.bytes = (Slots.sum ((history.filter (·.snapshot.proxy = row.1)).map (·.snapshot.upstreamBytes)),
      Slots.sum ((history.filter (·.snapshot.proxy = row.1)).map (·.snapshot.downstreamBytes)))
  streamLoss : ∀ row ∈ s.tables.proxies.rows,
    row.2.streamLoss = (Slots.sum ((history.filter (·.snapshot.proxy = row.1)).map (·.snapshot.upstreamStreamLoss)),
      Slots.sum ((history.filter (·.snapshot.proxy = row.1)).map (·.snapshot.downstreamStreamLoss)))

theorem sum_adds (k : MetricCounter) (hk : k ≠ .accepted ∧ k ≠ .rejected ∧ k ≠ .transitions) (tasks : List MetricTask) :
    (tasks.map (MetricTask.adds k)).sum = ((tasks.filterMap MetricTask.record?).map (·.adds k)).sum := by
  obtain ⟨haccepted, hrejected, htransitions⟩ := hk
  induction tasks with
  | nil => rfl
  | cons task tasks ih =>
    rw [List.map_cons, List.sum_cons, ih, List.filterMap_cons]
    cases task with
    | accept proxy => simp [MetricTask.adds, MetricTask.record?, haccepted]
    | reject => simp [MetricTask.adds, MetricTask.record?, hrejected]
    | close c => simp [MetricTask.adds, MetricTask.record?, htransitions]

/-- The tables' share of a history: the completions and losses under a name. -/
theorem history_total (name : String) (tasks : List MetricTask) :
    let ops := (tasks.flatMap MetricTask.tableOps).filter (·.proxy = name)
    let closed := (tasks.filterMap MetricTask.record?).filter (·.snapshot.proxy = name)
    ops.countP TableOp.isComplete = closed.length ∧
    ops.filterMap TableOp.completed? = closed.map (fun r => (r.snapshot.upstreamBytes, r.snapshot.downstreamBytes)) ∧
    ops.filterMap TableOp.lost? =
      closed.map (fun r => (r.snapshot.upstreamStreamLoss, r.snapshot.downstreamStreamLoss)) := by
  induction tasks with
  | nil => exact ⟨rfl, rfl, rfl⟩
  | cons task tasks ih =>
    simp only at ih ⊢
    obtain ⟨hcount, hbytes, hloss⟩ := ih
    rw [List.flatMap_cons, List.filter_append, List.countP_append, List.filterMap_append, List.filterMap_append, hcount,
      hbytes, hloss, List.filterMap_cons]
    cases task with
    | accept proxy => by_cases hp : proxy = name <;>
        simp [MetricTask.tableOps, MetricTask.record?, TableOp.proxy, TableOp.isComplete, TableOp.completed?,
          TableOp.lost?, List.filterMap_cons, hp]
    | reject => simp [MetricTask.tableOps, MetricTask.record?]
    | close c =>
      by_cases hp : c.record.snapshot.proxy = name
      · simp [MetricTask.tableOps, MetricTask.record?, closeTables, TableOp.proxy, TableOp.completed?, TableOp.lost?,
          List.filterMap_cons, hp, Nat.add_comm]
        rfl
      · simp [MetricTask.tableOps, MetricTask.record?, closeTables, TableOp.proxy, hp]

/-- As long as the history has dropped nothing, it and the metrics tell the same. -/
theorem recorded (h : Interleaved (tasks.map (MetricTask.steps limit)) taken left)
    (hdone : ∀ program ∈ left, program = []) (hroom : (tasks.filterMap MetricTask.record?).length ≤ limit) :
    (run (step limit) empty taken).history.Perm (tasks.filterMap MetricTask.record?) ∧
      Recorded (run (step limit) empty taken).history (run (step limit) empty taken) := by
  obtain ⟨hlast, hperm⟩ := history_latest h
  have hhistory : (run (step limit) empty taken).history.Perm (tasks.filterMap MetricTask.record?) := by
    rw [List.flatten_eq_nil_iff.2 hdone, List.flatMap_nil, List.append_nil] at hperm
    have hkept : MetricTask.kept limit (tasks.filterMap MetricTask.record?) = tasks.filterMap MetricTask.record? := by
      unfold MetricTask.kept
      split
      · exact (List.length_eq_zero_iff.1 (by omega)).symm
      · rfl
    rw [hkept] at hperm
    rw [hlast, lastOf, hperm.length_eq, Nat.sub_eq_zero_of_le hroom, List.drop_zero]
    exact hperm
  have hr := reconciled h hdone
  refine ⟨hhistory, ?_, ?_, ?_, ?_⟩
  · intro k haccepted hrejected htransitions
    rw [hr.counter k, sum_adds k ⟨haccepted, hrejected, htransitions⟩, ((hhistory.map (·.adds k)).sum_eq)]
  · intro row hrow
    have htotal := (history_total row.1 tasks).1
    rw [hr.proxy row hrow, List.countP_eq_length_filter, (hhistory.filter _).length_eq, ← htotal]
    rfl
  · intro row hrow
    have htotal := (history_total row.1 tasks).2.1
    rw [hr.proxy row hrow, Slots.sum_perm ((hhistory.filter _).map _), Slots.sum_perm ((hhistory.filter _).map _),
      PerProxyMetrics.total, htotal, List.map_map, List.map_map]
    rfl
  · intro row hrow
    have htotal := (history_total row.1 tasks).2.2
    rw [hr.proxy row hrow, Slots.sum_perm ((hhistory.filter _).map _), Slots.sum_perm ((hhistory.filter _).map _),
      PerProxyMetrics.total, htotal, List.map_map, List.map_map]
    rfl

/-- However connections are accepted, refused and closed side by side: at every
moment each counter and what is still to be added to it make the total, the tables
hold what was recorded in them, and the history has the latest closed connections. -/
theorem metrics_balance (h : Interleaved (tasks.map (MetricTask.steps limit)) taken left) :
    let s := run (step limit) empty taken
    (∀ k, s.counters k + UInt64.ofNat (((left.flatten.flatMap MetricStep.additions).map (Addition.to k)).sum) =
      UInt64.ofNat ((tasks.map (MetricTask.adds k)).sum)) ∧
    s.tables.Totals (taken.flatMap MetricStep.tableOps) ∧
    s.history = lastOf limit (taken.flatMap MetricStep.pushed) ∧
    (taken.flatMap MetricStep.pushed ++ left.flatten.flatMap MetricStep.pushed).Perm
      (MetricTask.kept limit (tasks.filterMap MetricTask.record?)) := by
  refine ⟨counter_balance h, ?_, history_latest h⟩
  have htables : (run (step limit) empty taken).tables =
      run MetricTables.step .empty (taken.flatMap MetricStep.tableOps) := tables_run limit empty taken
  rw [htables]
  exact MetricTables.totals_run _

/-- Once none of them is under way the metrics are what the connections add up to,
and so is the history unless it was too small for them. -/
theorem metrics_reconcile (h : Interleaved (tasks.map (MetricTask.steps limit)) taken left)
    (hdone : ∀ program ∈ left, program = []) :
    let s := run (step limit) empty taken
    Reconciled tasks s ∧
      ((tasks.filterMap MetricTask.record?).length ≤ limit →
        s.history.Perm (tasks.filterMap MetricTask.record?) ∧ Recorded s.history s) :=
  ⟨reconciled h hdone, recorded h hdone⟩

/-- A connection that is accepted and reset, beside one that is refused. -/
def resetTasks : List MetricTask :=
  [.accept "echo", .reject,
    .close ⟨{ id := 0, proxy := "echo" }, none, .hardReset .applied (.failed "closed"), some .hardReset, none, none⟩]

def resetPrograms : List (List MetricStep) := resetTasks.map (MetricTask.steps 1)

/-- The close has counted the reset of its client and not yet that of its upstream, and
nothing is in the history; the other connection has not been refused yet. -/
theorem metrics_balance_reset :
    let (taken, left) := schedule [2, 0, 2, 0, 2] resetPrograms
    let s := run (step 1) empty taken
    (s.counters .resetApplied + 0 = 1 ∧ s.counters .resetFailed + 1 = 1 ∧ s.counters .rejected + 1 = 1) ∧
    s.tables.Totals [.accept "echo"] ∧
    s.history = [] ∧
    (left.flatten.flatMap MetricStep.pushed).Perm (resetTasks.filterMap MetricTask.record?) := by
  obtain ⟨hcounter, htables, hhistory, hperm⟩ :=
    metrics_balance (Interleaved.scheduled [2, 0, 2, 0, 2] (resetTasks.map (MetricTask.steps 1)))
  exact ⟨⟨hcounter .resetApplied, hcounter .resetFailed, hcounter .rejected⟩, htables, hhistory, hperm⟩

/-- Turns that bring the three programs to their ends. -/
def resetTurns : List Nat := [2, 0, 2, 0, 2, 1] ++ List.replicate 7 2

theorem metrics_reconcile_reset :
    let s := run (step 1) empty (schedule resetTurns resetPrograms).1
    Reconciled resetTasks s ∧ s.history.Perm (resetTasks.filterMap MetricTask.record?) ∧ Recorded s.history s := by
  obtain ⟨hreconciled, hrecorded⟩ :=
    metrics_reconcile (Interleaved.scheduled resetTurns (resetTasks.map (MetricTask.steps 1))) (by decide)
  exact ⟨hreconciled, hrecorded (by decide)⟩

end MetricState

end Eggchaos
