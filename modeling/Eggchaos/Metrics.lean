import Eggchaos.Lib.BoundedTable
import Eggchaos.Lib.Machine
/-!
# Metric tables

`MetricTables` with its four `record_*` functions. Proxies have a series each as
long as there is room, and so has every proxy, direction and fault type that was
activated; the rest goes to the overflow series. After any records a series is
the total of its own records, from the first one on, and the overflow the total of
the others' (`MetricTables.run_tables`).
-/

namespace Eggchaos
open Lib

/-- A `[u64; 3]`. -/
abbrev Slots := UInt64 × UInt64 × UInt64

/-- `u64::saturating_add`. -/
def saturatingAdd (a b : UInt64) : UInt64 := UInt64.ofNat (satAdd a.toNat b.toNat)

def Slots.add (slots values : Slots) : Slots :=
  (saturatingAdd slots.1 values.1, saturatingAdd slots.2.1 values.2.1, saturatingAdd slots.2.2 values.2.2)

def maxMetricProxies : Nat := 1024
def maxMetricActivations : Nat := 8192

def faultTypeNames : Vector String 7 :=
  #v["latency", "bandwidth", "blackhole", "limit-data", "slow-close", "slice", "disconnect"]

/-- `bytes` and `stream_loss` have the upstream slots first. -/
structure PerProxyMetrics where
  accepted : UInt64 := 0
  completed : UInt64 := 0
  bytes : Slots × Slots := ((0, 0, 0), (0, 0, 0))
  streamLoss : Slots × Slots := ((0, 0, 0), (0, 0, 0))
deriving DecidableEq, Repr

/-- What an activation series is kept for. -/
structure ActivationKey where
  proxy : String
  direction : String
  faultType : String
deriving DecidableEq, Repr

structure MetricTables where
  proxies : BoundedTable String PerProxyMetrics
  activations : BoundedTable ActivationKey UInt64
deriving DecidableEq, Repr

namespace MetricTables

def empty : MetricTables := ⟨.empty {}, .empty 0⟩

variable (t : MetricTables) (proxy : String)

/-- A change of `proxy_entry`. -/
def onEntry (change : PerProxyMetrics → PerProxyMetrics) : MetricTables :=
  { t with proxies := t.proxies.record maxMetricProxies ⟨proxy, change {}, change⟩ }

def recordAccept : MetricTables := t.onEntry proxy fun entry => { entry with accepted := entry.accepted + 1 }

def recordComplete (upstream downstream : Slots) : MetricTables :=
  t.onEntry proxy fun entry =>
    { entry with
      completed := entry.completed + 1
      bytes := (entry.bytes.1.add upstream, entry.bytes.2.add downstream) }

def recordStreamLoss (upstream downstream : Slots) : MetricTables :=
  t.onEntry proxy fun entry =>
    { entry with streamLoss := (entry.streamLoss.1.add upstream, entry.streamLoss.2.add downstream) }

/-- One turn of the loop: a type that was not activated has no series. -/
def recordActivation (direction : String) (t : MetricTables) (activated : String × UInt64) : MetricTables :=
  if activated.2 = 0 then t
  else
    { t with
      activations := t.activations.record maxMetricActivations
        ⟨⟨proxy, direction, activated.1⟩, activated.2, (saturatingAdd · activated.2)⟩ }

def recordActivations (direction : String) (counts : Vector UInt64 7) : MetricTables :=
  (faultTypeNames.zip counts).toList.foldl (recordActivation proxy direction) t

end MetricTables

inductive TableOp where
  | accept (proxy : String)
  | complete (proxy : String) (upstream downstream : Slots)
  | activations (proxy direction : String) (counts : Vector UInt64 7)
  | streamLoss (proxy : String) (upstream downstream : Slots)
deriving DecidableEq, Repr

def MetricTables.step (t : MetricTables) : TableOp → MetricTables
  | .accept proxy => t.recordAccept proxy
  | .complete proxy upstream downstream => t.recordComplete proxy upstream downstream
  | .activations proxy direction counts => t.recordActivations proxy direction counts
  | .streamLoss proxy upstream downstream => t.recordStreamLoss proxy upstream downstream

/-! ## Totals -/

/-- What a saturating counter holds after these additions. -/
def saturatedSum (vs : List UInt64) : UInt64 := UInt64.ofNat (clampU64 (vs.map UInt64.toNat).sum)

theorem clampU64_lt (n : Nat) : clampU64 n < 2 ^ 64 := by
  have hle : clampU64 n ≤ u64Max := Nat.min_le_right _ _
  unfold u64Max at hle
  omega

theorem toNat_saturatedSum (vs : List UInt64) : (saturatedSum vs).toNat = clampU64 (vs.map UInt64.toNat).sum :=
  UInt64.toNat_ofNat_of_lt (clampU64_lt _)

theorem clampU64_toNat (v : UInt64) : clampU64 v.toNat = v.toNat := by
  have hlt : v.toNat < 2 ^ 64 := v.toNat_lt
  exact clampU64_of_le (by unfold u64Max; omega)

theorem saturatedSum_concat (vs : List UInt64) (v : UInt64) :
    saturatedSum (vs ++ [v]) = saturatingAdd (saturatedSum vs) v := by
  unfold saturatingAdd
  rw [toNat_saturatedSum, satAdd_clamp, saturatedSum, List.map_append, List.sum_append]
  simp

/-- The first value is stored as it is, not added to zero. -/
theorem saturatingAdd_zero (v : UInt64) : saturatingAdd 0 v = v := by
  unfold saturatingAdd
  rw [show (0 : UInt64).toNat = 0 from rfl, satAdd, Nat.zero_add, clampU64_toNat, UInt64.ofNat_toNat]

theorem saturatedSum_perm {vs vs' : List UInt64} (h : vs.Perm vs') : saturatedSum vs = saturatedSum vs' := by
  unfold saturatedSum
  rw [(h.map UInt64.toNat).sum_eq]

def Slots.sum (vs : List Slots) : Slots :=
  (saturatedSum (vs.map (·.1)), saturatedSum (vs.map (·.2.1)), saturatedSum (vs.map (·.2.2)))

theorem Slots.sum_concat (vs : List Slots) (v : Slots) : Slots.sum (vs ++ [v]) = (Slots.sum vs).add v := by
  simp only [Slots.sum, Slots.add, List.map_append, List.map_singleton, saturatedSum_concat]

theorem Slots.sum_perm {vs vs' : List Slots} (h : vs.Perm vs') : Slots.sum vs = Slots.sum vs' := by
  simp only [Slots.sum, saturatedSum_perm (h.map _)]

namespace TableOp

def proxy : TableOp → String
  | .accept proxy | .complete proxy _ _ | .activations proxy _ _ | .streamLoss proxy _ _ => proxy

/-- The record is one of the proxy's own series. -/
def onProxy : TableOp → Bool
  | .accept _ | .complete _ _ _ | .streamLoss _ _ _ => true
  | .activations _ _ _ => false

def isAccept : TableOp → Bool
  | .accept _ => true
  | _ => false

def isComplete : TableOp → Bool
  | .complete _ _ _ => true
  | _ => false

/-- The slots of both directions that a completion adds. -/
def completed? : TableOp → Option (Slots × Slots)
  | .complete _ upstream downstream => some (upstream, downstream)
  | _ => none

/-- The slots of both directions that stream-loss evidence adds. -/
def lost? : TableOp → Option (Slots × Slots)
  | .streamLoss _ upstream downstream => some (upstream, downstream)
  | _ => none

/-- The activations that have a series, each with its count. -/
def activated : TableOp → List (ActivationKey × UInt64)
  | .activations proxy direction counts =>
    ((faultTypeNames.zip counts).toList.filter (·.2 ≠ 0)).map fun a => (⟨proxy, direction, a.1⟩, a.2)
  | _ => []

end TableOp

/-- What the records of one series add up to. -/
def PerProxyMetrics.total (ops : List TableOp) : PerProxyMetrics where
  accepted := UInt64.ofNat (ops.countP TableOp.isAccept)
  completed := UInt64.ofNat (ops.countP TableOp.isComplete)
  bytes := (Slots.sum ((ops.filterMap TableOp.completed?).map (·.1)),
    Slots.sum ((ops.filterMap TableOp.completed?).map (·.2)))
  streamLoss := (Slots.sum ((ops.filterMap TableOp.lost?).map (·.1)),
    Slots.sum ((ops.filterMap TableOp.lost?).map (·.2)))

/-! ## What the tables hold -/

namespace TableOp

def proxyWrites : TableOp → List (TableWrite String PerProxyMetrics)
  | .accept proxy =>
    let change := fun entry : PerProxyMetrics => { entry with accepted := entry.accepted + 1 }
    [⟨proxy, change {}, change⟩]
  | .complete proxy upstream downstream =>
    let change := fun entry : PerProxyMetrics =>
      { entry with
        completed := entry.completed + 1
        bytes := (entry.bytes.1.add upstream, entry.bytes.2.add downstream) }
    [⟨proxy, change {}, change⟩]
  | .activations _ _ _ => []
  | .streamLoss proxy upstream downstream =>
    let change := fun entry : PerProxyMetrics =>
      { entry with streamLoss := (entry.streamLoss.1.add upstream, entry.streamLoss.2.add downstream) }
    [⟨proxy, change {}, change⟩]

def activationWrite (a : ActivationKey × UInt64) : TableWrite ActivationKey UInt64 :=
  ⟨a.1, a.2, (saturatingAdd · a.2)⟩

theorem first_of_mem_proxyWrites {op : TableOp} {w : TableWrite String PerProxyMetrics} (h : w ∈ op.proxyWrites) :
    w.first = w.update {} := by
  cases op with
  | activations proxy direction counts => simp [proxyWrites] at h
  | accept proxy | complete proxy upstream downstream | streamLoss proxy upstream downstream =>
    obtain rfl := List.mem_singleton.1 h
    rfl

/-- The proxy writes under some of the names are those of the records with such a name. -/
theorem filter_proxyWrites (p : String → Bool) (ops : List TableOp) :
    (ops.flatMap proxyWrites).filter (fun w => p w.key) = (ops.filter (fun op => p op.proxy)).flatMap proxyWrites := by
  induction ops with
  | nil => rfl
  | cons op ops ih =>
    rw [List.flatMap_cons, List.filter_append, ih, List.filter_cons]
    cases hp : p op.proxy with
    | true =>
      rw [if_pos rfl, List.flatMap_cons]
      congr 1
      cases op <;> simp_all [proxyWrites, proxy]
    | false =>
      rw [if_neg (by simp)]
      cases op <;> simp_all [proxyWrites, proxy]

end TableOp

/-- The series of some records is their total. -/
theorem series_proxyWrites (ops : List TableOp) :
    BoundedTable.series {} (ops.flatMap TableOp.proxyWrites) = PerProxyMetrics.total ops := by
  induction ops using List.reverseRecOn with
  | nil => rfl
  | append_singleton ops op ih =>
    rw [List.flatMap_append, List.flatMap_singleton]
    cases op with
    | activations proxy direction counts =>
      rw [TableOp.proxyWrites, List.append_nil, ih]
      simp [PerProxyMetrics.total, TableOp.isAccept, TableOp.isComplete, TableOp.completed?, TableOp.lost?, List.filterMap_cons]
    | accept proxy | complete proxy upstream downstream | streamLoss proxy upstream downstream =>
      rw [TableOp.proxyWrites, BoundedTable.series_concat, ih]
      simp [PerProxyMetrics.total, TableOp.isAccept, TableOp.isComplete, TableOp.completed?, TableOp.lost?,
        List.filterMap_cons, Slots.sum_concat]

theorem series_activationWrites (as : List (ActivationKey × UInt64)) :
    BoundedTable.series 0 (as.map TableOp.activationWrite) = saturatedSum (as.map (·.2)) := by
  induction as using List.reverseRecOn with
  | nil => rfl
  | append_singleton as a ih =>
    rw [List.map_append, List.map_singleton, BoundedTable.series_concat, ih, List.map_append, List.map_singleton,
      saturatedSum_concat]
    rfl

namespace MetricTables

theorem step_proxies (t : MetricTables) (op : TableOp) :
    (t.step op).proxies = run (BoundedTable.record maxMetricProxies) t.proxies op.proxyWrites := by
  cases op with
  | accept proxy => rfl
  | complete proxy upstream downstream => rfl
  | streamLoss proxy upstream downstream => rfl
  | activations proxy direction counts =>
    simp only [step, recordActivations, TableOp.proxyWrites, run_nil]
    generalize (faultTypeNames.zip counts).toList = l
    induction l generalizing t with
    | nil => rfl
    | cons a l ih =>
      rw [List.foldl_cons, ih]
      unfold recordActivation
      split <;> rfl

theorem step_activations (t : MetricTables) (op : TableOp) :
    (t.step op).activations =
      run (BoundedTable.record maxMetricActivations) t.activations (op.activated.map TableOp.activationWrite) := by
  cases op with
  | accept proxy => rfl
  | complete proxy upstream downstream => rfl
  | streamLoss proxy upstream downstream => rfl
  | activations proxy direction counts =>
    simp only [step, recordActivations, TableOp.activated]
    generalize (faultTypeNames.zip counts).toList = l
    induction l generalizing t with
    | nil => rfl
    | cons a l ih =>
      rw [List.foldl_cons, ih, List.filter_cons]
      by_cases ha : a.2 = 0
      · rw [if_neg (by simpa using ha), recordActivation, if_pos ha]
      · rw [if_pos (by simpa using ha), List.map_cons, List.map_cons, run_cons, recordActivation, if_neg ha]
        rfl

theorem run_proxies (t : MetricTables) (ops : List TableOp) :
    (run step t ops).proxies =
      run (BoundedTable.record maxMetricProxies) t.proxies (ops.flatMap TableOp.proxyWrites) := by
  induction ops generalizing t with
  | nil => rfl
  | cons op ops ih => rw [run_cons, ih, List.flatMap_cons, run_append, step_proxies]

theorem run_activations (t : MetricTables) (ops : List TableOp) :
    (run step t ops).activations =
      run (BoundedTable.record maxMetricActivations) t.activations
        ((ops.flatMap TableOp.activated).map TableOp.activationWrite) := by
  induction ops generalizing t with
  | nil => rfl
  | cons op ops ih => rw [run_cons, ih, List.flatMap_cons, List.map_append, run_append, step_activations]

/-- The tables are what these records add up to. -/
structure Totals (ops : List TableOp) (t : MetricTables) : Prop where
  proxies : t.proxies.keys = ((ops.filter TableOp.onProxy).map TableOp.proxy).eraseDups.take maxMetricProxies
  proxy : ∀ row ∈ t.proxies.rows, row.2 = .total (ops.filter (·.proxy = row.1))
  otherProxies : t.proxies.overflow = .total (ops.filter (·.proxy ∉ t.proxies.keys))
  activated : t.activations.keys =
    ((ops.flatMap TableOp.activated).map (·.1)).eraseDups.take maxMetricActivations
  activation : ∀ row ∈ t.activations.rows,
    row.2 = saturatedSum (((ops.flatMap TableOp.activated).filter (·.1 = row.1)).map (·.2))
  otherActivations : t.activations.overflow =
    saturatedSum (((ops.flatMap TableOp.activated).filter (·.1 ∉ t.activations.keys)).map (·.2))

theorem map_key_proxyWrites (ops : List TableOp) :
    (ops.flatMap TableOp.proxyWrites).map (·.key) = (ops.filter TableOp.onProxy).map TableOp.proxy := by
  induction ops with
  | nil => rfl
  | cons op ops ih =>
    rw [List.flatMap_cons, List.map_append, ih]
    cases op <;> rfl

theorem proxies_hold (ops : List TableOp) :
    BoundedTable.Holds maxMetricProxies {} (ops.flatMap TableOp.proxyWrites) (run step empty ops).proxies := by
  rw [run_proxies]
  refine BoundedTable.holds_run _ fun w hw => ?_
  obtain ⟨op, _, hop⟩ := List.mem_flatMap.1 hw
  exact TableOp.first_of_mem_proxyWrites hop

theorem activations_hold (ops : List TableOp) :
    BoundedTable.Holds maxMetricActivations 0 ((ops.flatMap TableOp.activated).map TableOp.activationWrite)
      (run step empty ops).activations := by
  rw [run_activations]
  refine BoundedTable.holds_run _ fun w hw => ?_
  obtain ⟨a, _, rfl⟩ := List.mem_map.1 hw
  exact (saturatingAdd_zero a.2).symm

theorem totals_run (ops : List TableOp) : Totals ops (run step empty ops) := by
  have hp := proxies_hold ops
  have ha := activations_hold ops
  refine ⟨?_, ?_, ?_, ?_, ?_, ?_⟩
  · rw [hp.keys, map_key_proxyWrites]
  · intro row hrow
    rw [hp.row row hrow, TableOp.filter_proxyWrites (· = row.1), series_proxyWrites]
  · rw [hp.rest]
    have hfilter := TableOp.filter_proxyWrites (· ∉ (run step empty ops).proxies.keys) ops
    exact (congrArg (BoundedTable.series ({} : PerProxyMetrics)) hfilter).trans (series_proxyWrites _)
  · rw [ha.keys, List.map_map]
    rfl
  · intro row hrow
    rw [ha.row row hrow, List.filter_map, series_activationWrites]
    rfl
  · rw [ha.rest, List.filter_map, series_activationWrites]
    rfl

theorem mem_keys_run (t : MetricTables) (ops : List TableOp) {name : String} (h : name ∈ t.proxies.keys) :
    name ∈ (run step t ops).proxies.keys := by
  rw [run_proxies]
  exact run_inv (fun t : BoundedTable String PerProxyMetrics => name ∈ t.keys)
    (fun _ _ h => BoundedTable.mem_keys_record h) h _

/-- A name without a series never gets one once the table is full. -/
theorem notMem_keys_run {t : MetricTables} (hfull : maxMetricProxies ≤ t.proxies.rows.length) (ops : List TableOp)
    {name : String} (h : name ∉ t.proxies.keys) : name ∉ (run step t ops).proxies.keys := by
  rw [run_proxies]
  refine (run_inv (fun t' : BoundedTable String PerProxyMetrics => t'.keys = t.proxies.keys) ?_ rfl _).symm ▸ h
  intro t' w hkeys
  by_cases hw : w.key ∈ t'.keys
  · rw [BoundedTable.keys_record_tracked hw, hkeys]
  · have hlen := congrArg List.length hkeys
    rw [BoundedTable.keys, BoundedTable.keys, List.length_map, List.length_map] at hlen
    rw [BoundedTable.record_full hw (by omega)]
    exact hkeys

/-- The tables never grow past their bounds and never lose or move a record: whatever
is recorded in whatever order, the series and the overflow add up to it, a series
once there stays, and a name that came too late stays in the overflow. -/
theorem run_tables (earlier later : List TableOp) :
    let t := run step empty earlier
    let t' := run step empty (earlier ++ later)
    t'.proxies.rows.length ≤ maxMetricProxies ∧ t'.activations.rows.length ≤ maxMetricActivations ∧
    Totals (earlier ++ later) t' ∧ (∀ name ∈ t.proxies.keys, name ∈ t'.proxies.keys) ∧
    (maxMetricProxies ≤ t.proxies.rows.length → ∀ name, name ∉ t.proxies.keys → name ∉ t'.proxies.keys) := by
  have hp := (proxies_hold (earlier ++ later)).length_eq
  have ha := (activations_hold (earlier ++ later)).length_eq
  refine ⟨by omega, by omega, totals_run _, ?_, ?_⟩
  · intro name hname
    rw [run_append]
    exact mem_keys_run _ _ hname
  · intro hfull name hname
    rw [run_append]
    exact notMem_keys_run hfull _ hname

end MetricTables

end Eggchaos
