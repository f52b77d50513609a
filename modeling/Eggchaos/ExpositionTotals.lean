import Eggchaos.Exposition
/-!
# Totals in the metrics text

Once connections are done, the metrics text read back tells of every proxy in the
table how many were accepted and completed, and what it tells of the proxies and of
the overflow makes what it tells of the process (`metrics_text_adds_up`).
-/

namespace Eggchaos
open Lib

/-! ## Sums of a metric -/

/-- The sum of a metric over all its series. -/
def metricTotal (metric : String) (samples : List Sample) : Nat :=
  ((samples.filter (·.metric = metric)).map (·.value)).sum

theorem metricTotal_append (metric : String) (l l' : List Sample) :
    metricTotal metric (l ++ l') = metricTotal metric l + metricTotal metric l' := by
  simp only [metricTotal, List.filter_append, List.map_append, List.sum_append]

theorem metricTotal_flatMap {α : Type} (metric : String) (l : List α) (samples : α → List Sample) :
    metricTotal metric (l.flatMap samples) = (l.map fun a => metricTotal metric (samples a)).sum := by
  induction l with
  | nil => rfl
  | cons a l ih => rw [List.flatMap_cons, metricTotal_append, ih, List.map_cons, List.sum_cons]

/-- Series of other metrics add nothing. -/
theorem metricTotal_other {metric : String} {samples : List Sample}
    (h : ∀ s ∈ samples.map Sample.series, s.1 ≠ metric) : metricTotal metric samples = 0 := by
  rw [metricTotal, List.filter_eq_nil_iff.2]
  · rfl
  · intro s hs
    simpa [Sample.series] using h s.series (List.mem_map_of_mem hs)

theorem metricTotal_process (v : MetricsView) :
    metricTotal "eggchaos_connections_accepted_total" ((processLines v).filterMap SampleLine.sample?) =
        (v.counters .accepted).toNat ∧
      metricTotal "eggchaos_connections_completed_total" ((processLines v).filterMap SampleLine.sample?) =
        (v.counters .completed).toNat := by
  simp [processLines, describe, measured, outcomeClassNames_eq, SampleLine.sample?, metricTotal, List.filterMap_cons]

theorem metricTotal_proxy (row : String × PerProxyMetrics) :
    metricTotal "eggchaos_proxy_connections_accepted_total" (proxySamples row) = row.2.accepted.toNat ∧
      metricTotal "eggchaos_proxy_connections_completed_total" (proxySamples row) = row.2.completed.toNat := by
  simp [proxySamples, connectionSamples, proxyByteSamples, streamLossSamples, metricTotal]

/-- A metric that is neither a gauge nor of activations is the process's and the proxies'. -/
theorem metricTotal_samples (v : MetricsView) {metric : String}
    (hgauge : ((liveFamily ++ datagramFamily).map (·.1)).contains metric = false)
    (hactivation : metric ≠ "eggchaos_fault_activations_total") : metricTotal metric (metricsSamples v) =
      metricTotal metric ((processLines v).filterMap SampleLine.sample?) +
        ((v.tables.proxies.rows.map fun row => metricTotal metric (proxySamples row)).sum +
          metricTotal metric (overflowSamples v.tables.proxies.overflow)) := by
  have hgauges : metricTotal metric ((v.proxies.mergeSort fun a b => a.name ≤ b.name).flatMap (liveSamples v.connections) ++
      v.datagramProxies.flatMap (datagramSamples v.associations)) = 0 := by
    apply metricTotal_other
    intro s hs
    simp only [List.map_append, List.map_flatMap, liveSamples_series, datagramSamples_series] at hs
    rintro rfl
    rw [(gaugeSeries_metrics (v := v) (by simpa only [labeled, List.flatMap_map] using hs)).2] at hgauge
    cases hgauge
  have hactivations : metricTotal metric
      ((v.tables.activations.rows.mergeSort fun a b => a.1.le b.1).map activationSample ++
        otherActivationSamples v.tables.activations.overflow) = 0 := by
    apply metricTotal_other
    intro s hs
    rw [List.map_append, activationKeys_series] at hs
    obtain ⟨key, _, rfl⟩ := List.mem_map.1 hs
    exact hactivation.symm
  have hrows : ((v.tables.proxies.rows.mergeSort fun a b => a.1 ≤ b.1).map fun row =>
      metricTotal metric (proxySamples row)).sum =
        (v.tables.proxies.rows.map fun row => metricTotal metric (proxySamples row)).sum :=
    ((List.mergeSort_perm _ _).map _).sum_eq
  rw [metricsSamples_eq, metricTotal_append, metricTotal_append, hgauges, tableSamples, metricTotal_append, hactivations,
    metricTotal_append, metricTotal_flatMap, hrows]
  omega

/-- A metric of the process is of nothing else. -/
theorem metricTotal_processMetric (v : MetricsView) {metric : String}
    (hgauge : ((liveFamily ++ datagramFamily).map (·.1)).contains metric = false)
    (hactivation : metric ≠ "eggchaos_fault_activations_total")
    (hproxy : (proxyFamily ++ overflowFamily).all (·.1 ≠ metric) = true) : metricTotal metric (metricsSamples v) =
      metricTotal metric ((processLines v).filterMap SampleLine.sample?) := by
  have hfamily : ∀ t ∈ proxyFamily ++ overflowFamily, t.1 ≠ metric :=
    fun t ht => of_decide_eq_true (List.all_eq_true.1 hproxy t ht)
  have hrow : ∀ row : String × PerProxyMetrics, metricTotal metric (proxySamples row) = 0 := by
    intro row
    apply metricTotal_other
    intro s hs
    rw [proxySamples_series] at hs
    obtain ⟨t, ht, rfl⟩ := List.mem_map.1 hs
    exact hfamily t (List.mem_append_left _ ht)
  have hoverflow : metricTotal metric (overflowSamples v.tables.proxies.overflow) = 0 := by
    apply metricTotal_other
    intro s hs
    obtain ⟨t, ht, rfl⟩ := overflowSeries_family hs
    exact hfamily t (List.mem_append_right _ ht)
  rw [metricTotal_samples v hgauge hactivation, hoverflow]
  simp [hrow]

/-- A metric of proxies is not of the process. -/
theorem metricTotal_proxyMetric (v : MetricsView) {metric : String}
    (hgauge : ((liveFamily ++ datagramFamily).map (·.1)).contains metric = false)
    (hactivation : metric ≠ "eggchaos_fault_activations_total")
    (hprocess : processSeries.all (·.1 ≠ metric) = true) : metricTotal metric (metricsSamples v) =
      (v.tables.proxies.rows.map fun row => metricTotal metric (proxySamples row)).sum +
        metricTotal metric (overflowSamples v.tables.proxies.overflow) := by
  have hnone : metricTotal metric ((processLines v).filterMap SampleLine.sample?) = 0 := by
    apply metricTotal_other
    intro s hs
    rw [processLines_series] at hs
    exact of_decide_eq_true (List.all_eq_true.1 hprocess s hs)
  rw [metricTotal_samples v hgauge hactivation, hnone, Nat.zero_add]

/-! ## Counts -/

namespace MetricTask

def isAccept : MetricTask → Bool
  | .accept _ => true
  | _ => false

def isClose : MetricTask → Bool
  | .close _ => true
  | _ => false

/-- What the connections are counted as, by the process and in the tables. -/
theorem counts (tasks : List MetricTask) :
    (tasks.map (adds .accepted)).sum = tasks.countP isAccept ∧
    (tasks.map (adds .completed)).sum = tasks.countP isClose ∧
    (tasks.flatMap tableOps).countP TableOp.isAccept = tasks.countP isAccept ∧
    (tasks.flatMap tableOps).countP TableOp.isComplete = tasks.countP isClose := by
  induction tasks with
  | nil => exact ⟨rfl, rfl, rfl, rfl⟩
  | cons task tasks ih =>
    obtain ⟨haccepted, hcompleted, haccepts, hcompletes⟩ := ih
    simp only [List.map_cons, List.sum_cons, List.flatMap_cons, List.countP_append, List.countP_cons, haccepted,
      hcompleted, haccepts, hcompletes]
    cases task <;>
      simp [adds, isAccept, isClose, tableOps, closeTables, TableOp.isAccept, TableOp.isComplete, HistoryRecord.adds,
        List.countP_cons, Nat.add_comm]

theorem counts_le (tasks : List MetricTask) : tasks.countP isAccept + tasks.countP isClose ≤ tasks.length := by
  induction tasks with
  | nil => exact Nat.le_refl 0
  | cons task tasks ih =>
    rw [List.countP_cons, List.countP_cons, List.length_cons]
    cases task <;> simp only [isAccept, isClose, if_true, if_false, Bool.false_eq_true] <;> omega

end MetricTask

/-! ## Names in the tables -/

/-- Activations are recorded for the two directions. -/
def TableOp.Directed : TableOp → Prop
  | .activations _ direction _ => direction ∈ ["upstream", "downstream"]
  | _ => True

theorem MetricTask.directed (task : MetricTask) : ∀ op ∈ task.tableOps, op.Directed := by
  cases task with
  | accept proxy => simp [MetricTask.tableOps, TableOp.Directed]
  | reject => simp [MetricTask.tableOps]
  | close taken => simp [MetricTask.tableOps, closeTables, TableOp.Directed]

theorem activated_key {op : TableOp} (hop : op.Directed) {a : ActivationKey × UInt64} (h : a ∈ op.activated) :
    a.1.proxy = op.proxy ∧ a.1.direction ∈ ["upstream", "downstream"] ∧ a.1.faultType ∈ faultTypeNames.toList := by
  cases op with
  | accept proxy | complete proxy upstream downstream | streamLoss proxy upstream downstream => cases h
  | activations proxy direction counts =>
    obtain ⟨b, hb, rfl⟩ := List.mem_map.1 h
    have hzip := (List.mem_filter.1 hb).1
    rw [Vector.toList_zip] at hzip
    exact ⟨rfl, hop, (List.of_mem_zip hzip).1⟩

/-- Tables of valid names hold valid names, each once. -/
theorem named_run {ops : List TableOp} (hnames : ∀ op ∈ ops, IsName op.proxy) (hdirected : ∀ op ∈ ops, op.Directed)
    {t : MetricTables} (ht : t = run MetricTables.step .empty ops) :
    (t.proxies.keys.Nodup ∧ ∀ name ∈ t.proxies.keys, IsName name) ∧
      t.activations.keys.Nodup ∧ ∀ key ∈ t.activations.keys,
        IsName key.proxy ∧ key.direction ∈ ["upstream", "downstream"] ∧ key.faultType ∈ faultTypeNames.toList := by
  have hp := MetricTables.proxies_hold ops
  have ha := MetricTables.activations_hold ops
  rw [← ht] at hp ha
  refine ⟨⟨hp.nodup, fun name hname => ?_⟩, ha.nodup, fun key hkey => ?_⟩
  · have hwritten := hp.written hname
    rw [MetricTables.map_key_proxyWrites] at hwritten
    obtain ⟨op, hop, rfl⟩ := List.mem_map.1 hwritten
    exact hnames op (List.mem_filter.1 hop).1
  · have hwritten := ha.written hkey
    rw [List.map_map] at hwritten
    obtain ⟨a, hactivated, rfl⟩ := List.mem_map.1 hwritten
    obtain ⟨op, hop, hmem⟩ := List.mem_flatMap.1 hactivated
    obtain ⟨hproxy, hdirection, htype⟩ := activated_key (hdirected op hop) hmem
    exact ⟨show IsName a.1.proxy from hproxy ▸ hnames op hop, hdirection, htype⟩

/-! ## Connections that are done -/

section
variable {limit : Nat} {tasks : List MetricTask} {taken : List MetricStep} {left : List (List MetricStep)}

/-- Some of the tables' records, counted without wrapping. -/
theorem toNat_count {ops : List TableOp} {p : TableOp → Bool} (hfew : ops.countP p < 2 ^ 64) (q : TableOp → Bool) :
    (UInt64.ofNat ((ops.filter q).countP p)).toNat = (ops.filter q).countP p := by
  have hle : (ops.filter q).countP p ≤ ops.countP p := (List.filter_sublist (p := q)).countP_le
  exact UInt64.toNat_ofNat_of_lt' (by change _ < 2 ^ 64; omega)

/-- What the tables hold of connections, if there are not too many to count. -/
structure TableCounts (tasks : List MetricTask) (t : MetricTables) : Prop where
  accepted : (t.proxies.rows.map (·.2.accepted.toNat)).sum + t.proxies.overflow.accepted.toNat =
    tasks.countP MetricTask.isAccept
  completed : (t.proxies.rows.map (·.2.completed.toNat)).sum + t.proxies.overflow.completed.toNat =
    tasks.countP MetricTask.isClose
  row : ∀ row ∈ t.proxies.rows,
    row.2.accepted.toNat = ((tasks.flatMap MetricTask.tableOps).filter (·.proxy = row.1)).countP TableOp.isAccept ∧
    row.2.completed.toNat = ((tasks.flatMap MetricTask.tableOps).filter (·.proxy = row.1)).countP TableOp.isComplete

theorem tableCounts {s : MetricState} (hs : MetricState.Reconciled tasks s) (hkeys : s.tables.proxies.keys.Nodup)
    (hfew : tasks.length < 2 ^ 64) : TableCounts tasks s.tables := by
  obtain ⟨-, -, haccepts, hcompletes⟩ := MetricTask.counts tasks
  have hfewAccepts : (tasks.flatMap MetricTask.tableOps).countP TableOp.isAccept < 2 ^ 64 := by
    rw [haccepts]
    exact lt_of_le_of_lt List.countP_le_length hfew
  have hfewCompletes : (tasks.flatMap MetricTask.tableOps).countP TableOp.isComplete < 2 ^ 64 := by
    rw [hcompletes]
    exact lt_of_le_of_lt List.countP_le_length hfew
  have hrow : ∀ row ∈ s.tables.proxies.rows,
      row.2.accepted.toNat = ((tasks.flatMap MetricTask.tableOps).filter (·.proxy = row.1)).countP TableOp.isAccept ∧
      row.2.completed.toNat = ((tasks.flatMap MetricTask.tableOps).filter (·.proxy = row.1)).countP TableOp.isComplete := by
    intro row hrow
    rw [hs.proxy row hrow]
    exact ⟨toNat_count hfewAccepts _, toNat_count hfewCompletes _⟩
  have hkeysMap : ∀ count : String → Nat,
      s.tables.proxies.rows.map (fun row => count row.1) = s.tables.proxies.keys.map count := by
    intro count
    rw [BoundedTable.keys, List.map_map]
    rfl
  refine ⟨?_, ?_, hrow⟩
  · rw [← haccepts, ← BoundedTable.sum_countP_keys TableOp.proxy TableOp.isAccept hkeys, ← hkeysMap,
      List.map_congr_left fun row h => (hrow row h).1, hs.otherProxies]
    exact congrArg _ (toNat_count hfewAccepts _)
  · rw [← hcompletes, ← BoundedTable.sum_countP_keys TableOp.proxy TableOp.isComplete hkeys, ← hkeysMap,
      List.map_congr_left fun row h => (hrow row h).2, hs.otherProxies]
    exact congrArg _ (toNat_count hfewCompletes _)

/-- The overflow is left out only when there is nothing to add. -/
theorem metricTotal_overflow {entry : PerProxyMetrics} (hfew : entry.accepted.toNat + entry.completed.toNat < 2 ^ 64) :
    metricTotal "eggchaos_proxy_connections_accepted_total" (overflowSamples entry) = entry.accepted.toNat ∧
      metricTotal "eggchaos_proxy_connections_completed_total" (overflowSamples entry) = entry.completed.toNat := by
  unfold overflowSamples
  split
  · simp [connectionSamples, streamLossSamples, metricTotal]
  · next hempty =>
    have hsum : (entry.accepted + entry.completed).toNat = entry.accepted.toNat + entry.completed.toNat :=
      (UInt64.toNat_add _ _).trans (Nat.mod_eq_of_lt hfew)
    have hzero : (entry.accepted + entry.completed).toNat = 0 := by
      rw [UInt64.lt_iff_toNat_lt] at hempty
      simpa using hempty
    rw [hsum] at hzero
    constructor
    · exact (Nat.eq_zero_of_add_eq_zero_right hzero).symm
    · exact (Nat.eq_zero_of_add_eq_zero_left hzero).symm

theorem mem_proxySamples {v : MetricsView} {row : String × PerProxyMetrics} (hrow : row ∈ v.tables.proxies.rows) :
    ∀ s ∈ connectionSamples row.1 row.2, s ∈ metricsSamples v := by
  intro s hs
  have hproxy : s ∈ proxySamples row := List.mem_append_left _ (List.mem_append_left _ hs)
  have hrows : s ∈ (v.tables.proxies.rows.mergeSort fun a b => a.1 ≤ b.1).flatMap proxySamples :=
    List.mem_flatMap.2 ⟨row, List.mem_mergeSort.2 hrow, hproxy⟩
  rw [metricsSamples_eq, tableSamples]
  simp only [List.mem_append, hrows, true_or, or_true]

theorem connection_metrics_apart :
    (["eggchaos_connections_accepted_total", "eggchaos_connections_completed_total",
        "eggchaos_proxy_connections_accepted_total", "eggchaos_proxy_connections_completed_total"].all fun metric =>
      !((liveFamily ++ datagramFamily).map (·.1)).contains metric &&
        metric ≠ "eggchaos_fault_activations_total") = true ∧
    (["eggchaos_connections_accepted_total", "eggchaos_connections_completed_total"].all fun metric =>
      (proxyFamily ++ overflowFamily).all (·.1 ≠ metric)) = true ∧
    (["eggchaos_proxy_connections_accepted_total", "eggchaos_proxy_connections_completed_total"].all fun metric =>
      processSeries.all (·.1 ≠ metric)) = true := by
  decide

/-- Once connections are done, the text tells of every proxy in the table how many were
accepted and completed, and what it tells of all proxies and of the overflow makes what
it tells of the process. -/
theorem metrics_text_adds_up (h : Interleaved (tasks.map (MetricTask.steps limit)) taken left)
    (hdone : ∀ program ∈ left, program = []) (hfew : tasks.length < 2 ^ 64)
    (hnames : ∀ op ∈ tasks.flatMap MetricTask.tableOps, IsName op.proxy) {v : MetricsView}
    (hcounters : v.counters = (run (MetricState.step limit) .empty taken).counters)
    (htables : v.tables = (run (MetricState.step limit) .empty taken).tables)
    (hproxies : (v.proxies.map (·.name)).Nodup ∧ ∀ name ∈ v.proxies.map (·.name), IsName name)
    (hdatagrams : (v.datagramProxies.map (·.name)).Nodup ∧ ∀ name ∈ v.datagramProxies.map (·.name), IsName name) :
    ∃ samples, readText (metricsText v).toList = some samples ∧
      metricTotal "eggchaos_connections_accepted_total" samples = tasks.countP MetricTask.isAccept ∧
      metricTotal "eggchaos_proxy_connections_accepted_total" samples = tasks.countP MetricTask.isAccept ∧
      metricTotal "eggchaos_connections_completed_total" samples = tasks.countP MetricTask.isClose ∧
      metricTotal "eggchaos_proxy_connections_completed_total" samples = tasks.countP MetricTask.isClose ∧
      ∀ name ∈ v.tables.proxies.keys,
        ⟨"eggchaos_proxy_connections_accepted_total", [("proxy", name)],
          ((tasks.flatMap MetricTask.tableOps).filter (·.proxy = name)).countP TableOp.isAccept⟩ ∈ samples ∧
        ⟨"eggchaos_proxy_connections_completed_total", [("proxy", name)],
          ((tasks.flatMap MetricTask.tableOps).filter (·.proxy = name)).countP TableOp.isComplete⟩ ∈ samples := by
  have hs := MetricState.reconciled h hdone
  have hops : (tasks.flatMap MetricTask.tableOps).Perm (taken.flatMap MetricStep.tableOps) := by
    rw [← MetricTask.all_tableOps limit]
    exact (h.perm_of_done hdone).flatMap_right _
  have hdirected : ∀ op ∈ taken.flatMap MetricStep.tableOps, op.Directed := by
    intro op hop
    obtain ⟨task, _, hmem⟩ := List.mem_flatMap.1 (hops.mem_iff.2 hop)
    exact task.directed op hmem
  have hnamed := named_run (fun op hop => hnames op (hops.mem_iff.2 hop)) hdirected
    (htables.trans (MetricState.tables_run limit .empty taken))
  have hv : v.Named := ⟨hnamed.1, hnamed.2, hproxies, hdatagrams⟩
  have ht : TableCounts tasks v.tables := htables ▸ tableCounts hs (htables ▸ hnamed.1.1) hfew
  have haccepted : (v.counters .accepted).toNat = tasks.countP MetricTask.isAccept := by
    rw [hcounters, hs.counter, (MetricTask.counts tasks).1]
    exact UInt64.toNat_ofNat_of_lt' (lt_of_le_of_lt List.countP_le_length hfew)
  have hcompleted : (v.counters .completed).toNat = tasks.countP MetricTask.isClose := by
    rw [hcounters, hs.counter, (MetricTask.counts tasks).2.1]
    exact UInt64.toNat_ofNat_of_lt' (lt_of_le_of_lt List.countP_le_length hfew)
  have hfits : v.tables.proxies.overflow.accepted.toNat + v.tables.proxies.overflow.completed.toNat < 2 ^ 64 := by
    have hle := MetricTask.counts_le tasks
    have haccepted := ht.accepted
    have hcompleted := ht.completed
    omega
  have hoverflow := metricTotal_overflow hfits
  have happart := connection_metrics_apart
  simp only [List.all_cons, List.all_nil, Bool.and_true, Bool.and_eq_true, Bool.not_eq_true', decide_eq_true_eq] at happart
  obtain ⟨⟨⟨hga, haa⟩, ⟨hgc, hac⟩, ⟨hgpa, hapa⟩, hgpc, hapc⟩, ⟨hpa, hpc⟩, hspa, hspc⟩ := happart
  refine ⟨metricsSamples v, readText_metricsText hv, ?_, ?_, ?_, ?_, fun name hname => ?_⟩
  · rw [metricTotal_processMetric v hga haa hpa, (metricTotal_process v).1, haccepted]
  · rw [metricTotal_proxyMetric v hgpa hapa hspa, hoverflow.1, ← ht.accepted]
    simp only [(metricTotal_proxy _).1]
  · rw [metricTotal_processMetric v hgc hac hpc, (metricTotal_process v).2, hcompleted]
  · rw [metricTotal_proxyMetric v hgpc hapc hspc, hoverflow.2, ← ht.completed]
    simp only [(metricTotal_proxy _).2]
  · obtain ⟨row, hrow, rfl⟩ := List.mem_map.1 hname
    have hmem := mem_proxySamples hrow
    rw [← (ht.row row hrow).1, ← (ht.row row hrow).2]
    exact ⟨hmem _ List.mem_cons_self, hmem _ (List.mem_cons_of_mem _ List.mem_cons_self)⟩

/-- What is read after one connection was accepted, one refused and one reset. -/
def resetView : MetricsView :=
  let s := run (MetricState.step 1) .empty (schedule MetricState.resetTurns MetricState.resetPrograms).1
  { blankView with counters := s.counters, tables := s.tables }

theorem metrics_text_adds_up_reset : ∃ samples, readText (metricsText resetView).toList = some samples ∧
    metricTotal "eggchaos_connections_completed_total" samples = 1 ∧
    metricTotal "eggchaos_proxy_connections_completed_total" samples = 1 := by
  have hnames : (MetricState.resetTasks.flatMap MetricTask.tableOps).all
      (fun op => op.proxy.toList.all ProxySpec.isNameChar) = true := by decide
  obtain ⟨samples, hread, -, -, hcompleted, hproxies, -⟩ := metrics_text_adds_up
    (Interleaved.scheduled MetricState.resetTurns (MetricState.resetTasks.map (MetricTask.steps 1))) (by decide) (by decide)
    (List.all_eq_true.1 hnames) (show resetView.counters = _ from rfl) rfl ⟨List.nodup_nil, List.forall_mem_nil _⟩
    ⟨List.nodup_nil, List.forall_mem_nil _⟩
  exact ⟨samples, hread, hcompleted, hproxies⟩

end

end Eggchaos
