import Eggchaos.Datagram
import Eggchaos.Lib.SampleText
import Eggchaos.MetricRuns
/-!
# The metrics text

`metrics_text`: the counters, the tables, and what is live at the moment, a line
each. The values come from many places that are read one after the other; a
`MetricsView` has what was read.

The text reads back to its samples, and a series is there once unless a proxy has
the name of the overflow (`metrics_text_reads`).
-/

namespace Eggchaos
open Lib

/-! ## What is read -/

/-- A proxy of the registry. -/
structure LiveProxy where
  name : String
  active : Nat
  upstreamGeneration : UInt64
  downstreamGeneration : UInt64
deriving DecidableEq, Repr

/-- A live connection, with the `byte_counts` of its evidence. -/
structure LiveConnection where
  proxy : String
  evidence : Option (Slots × Slots)
deriving DecidableEq, Repr

structure DatagramProxyCounts where
  name : String
  activeAssociations : Nat
  oversizeDatagrams : Nat
  associationCapacityRejections : Nat
  ingressQueueOverflow : Nat
  associationSetupFailures : Nat
deriving DecidableEq, Repr

/-- An association, active or retained. -/
structure AssociationCounts where
  proxy : String
  administrativeDiscards : Nat
  upstreamEvidence : DatagramEvidence
  downstreamEvidence : DatagramEvidence

structure MetricsView where
  generation : UInt64
  counters : MetricCounter → UInt64
  active : Nat
  scheduleV2Runs : UInt64
  scheduleV2Events : UInt64
  scheduleV2LateEvents : UInt64
  tables : MetricTables
  proxies : List LiveProxy
  connections : List LiveConnection
  datagramProxies : List DatagramProxyCounts
  associations : List AssociationCounts

/-! ## Lines -/

/-- The comments of a metric. -/
def describe (metric help kind : String) : List SampleLine :=
  [.comment (" HELP " ++ metric ++ " " ++ help), .comment (" TYPE " ++ metric ++ " " ++ kind)]

/-- A line for each of some labels. -/
def measured (metric : String) (rows : List (List (String × String) × Nat)) : List SampleLine :=
  rows.map fun row => .sample ⟨metric, row.1, row.2⟩

/-- `OUTCOME_CLASS_NAMES`. -/
def outcomeClassNames : List (String × Fin 8) :=
  ["relay_completed", "connect_failed", "killed_by_operator", "service_shutdown", "proxy_removed",
    "graceful_termination", "hard_reset", "relay_error"].zip (List.finRange 8)

theorem outcomeClassNames_eq : outcomeClassNames =
    [("relay_completed", 0), ("connect_failed", 1), ("killed_by_operator", 2), ("service_shutdown", 3),
      ("proxy_removed", 4), ("graceful_termination", 5), ("hard_reset", 6), ("relay_error", 7)] := by decide

/-- The lines that are about no proxy. -/
def processLines (v : MetricsView) : List SampleLine :=
  let total (counter : MetricCounter) : Nat := (v.counters counter).toNat
  List.flatten [
    describe "eggchaos_config_generation" "Current configuration generation" "gauge",
    measured "eggchaos_config_generation" [([], v.generation.toNat)],
    describe "eggchaos_connections_accepted_total" "Accepted connections" "counter",
    measured "eggchaos_connections_accepted_total" [([], total .accepted)],
    describe "eggchaos_connections_completed_total" "Completed connections" "counter",
    measured "eggchaos_connections_completed_total" [([], total .completed)],
    describe "eggchaos_connections_rejected_total" "Rejected connections" "counter",
    measured "eggchaos_connections_rejected_total" [([], total .rejected)],
    describe "eggchaos_connections_active" "Active connections" "gauge",
    measured "eggchaos_connections_active" [([], v.active)],
    measured "eggchaos_connection_outcomes_total"
      (outcomeClassNames.map fun c => ([("outcome", c.1)], total (.outcomes c.2))),
    describe "eggchaos_termination_requests_total" "Injected termination requests observed at close" "counter",
    measured "eggchaos_termination_requests_total"
      [([("request", "graceful")], total .gracefulRequests), ([("request", "hard_reset")], total .hardResetRequests)],
    describe "eggchaos_reset_results_total" "Abortive-close outcomes at the TCP edge" "counter",
    measured "eggchaos_reset_results_total"
      [([("result", "applied")], total .resetApplied), ([("result", "unsupported")], total .resetUnsupported),
        ([("result", "failed")], total .resetFailed)],
    describe "eggchaos_bytes_total" "Bytes by flow across closed connections" "counter",
    measured "eggchaos_bytes_total"
      [([("flow", "accepted")], total .bytesAccepted), ([("flow", "forwarded")], total .bytesForwarded),
        ([("flow", "discarded")], total .bytesDiscarded)],
    describe "eggchaos_policy_transitions_total" "Completed live-policy transitions" "counter",
    measured "eggchaos_policy_transitions_total" [([], total .transitions)],
    describe "eggchaos_schedule_v2_runs_total" "V2 schedule runs started" "counter",
    measured "eggchaos_schedule_v2_runs_total" [([], v.scheduleV2Runs.toNat)],
    describe "eggchaos_schedule_v2_events_total" "V2 schedule events applied" "counter",
    measured "eggchaos_schedule_v2_events_total" [([], v.scheduleV2Events.toNat)],
    describe "eggchaos_schedule_v2_late_events_total" "V2 schedule events applied after their deadline" "counter",
    measured "eggchaos_schedule_v2_late_events_total" [([], v.scheduleV2LateEvents.toNat)],
    describe "eggchaos_stream_loss_chunks_evaluated_total" "Logical stream-loss chunks evaluated" "counter",
    describe "eggchaos_stream_loss_chunks_dropped_total" "Logical stream-loss chunks dropped" "counter",
    describe "eggchaos_stream_loss_bytes_discarded_total" "Bytes discarded by stream-loss faults" "counter"]

/-! ### Tables -/

/-- The two numbers of connections. -/
def connectionSamples (proxy : String) (entry : PerProxyMetrics) : List Sample :=
  [⟨"eggchaos_proxy_connections_accepted_total", [("proxy", proxy)], entry.accepted.toNat⟩,
    ⟨"eggchaos_proxy_connections_completed_total", [("proxy", proxy)], entry.completed.toNat⟩]

def proxyByteSamples (proxy direction : String) (bytes : Slots) : List Sample :=
  let flow (flow : String) (value : UInt64) : Sample :=
    ⟨"eggchaos_proxy_bytes_total", [("proxy", proxy), ("direction", direction), ("flow", flow)], value.toNat⟩
  [flow "accepted" bytes.1, flow "forwarded" bytes.2.1, flow "discarded" bytes.2.2]

/-- One direction of `write_stream_loss_samples`. -/
def streamLossSamples (proxy direction : String) (samples : Slots) : List Sample :=
  let loss (metric : String) (value : UInt64) : Sample :=
    ⟨metric, [("proxy", proxy), ("direction", direction)], value.toNat⟩
  [loss "eggchaos_stream_loss_chunks_evaluated_total" samples.1,
    loss "eggchaos_stream_loss_chunks_dropped_total" samples.2.1,
    loss "eggchaos_stream_loss_bytes_discarded_total" samples.2.2]

def proxySamples (row : String × PerProxyMetrics) : List Sample :=
  connectionSamples row.1 row.2 ++
    (proxyByteSamples row.1 "upstream" row.2.bytes.1 ++ proxyByteSamples row.1 "downstream" row.2.bytes.2) ++
    (streamLossSamples row.1 "upstream" row.2.streamLoss.1 ++
      streamLossSamples row.1 "downstream" row.2.streamLoss.2)

/-- The overflow is left out while it is empty, and its bytes are always left out. -/
def overflowSamples (entry : PerProxyMetrics) : List Sample :=
  if 0 < entry.accepted + entry.completed then
    connectionSamples "_overflow" entry ++
      (streamLossSamples "_overflow" "upstream" entry.streamLoss.1 ++
        streamLossSamples "_overflow" "downstream" entry.streamLoss.2)
  else []

def activationSample (row : ActivationKey × UInt64) : Sample :=
  ⟨"eggchaos_fault_activations_total",
    [("proxy", row.1.proxy), ("direction", row.1.direction), ("fault_type", row.1.faultType)], row.2.toNat⟩

def otherActivationSamples (count : UInt64) : List Sample :=
  if 0 < count then [activationSample (⟨"_overflow", "_overflow", "_overflow"⟩, count)] else []

/-- The order of tuples. -/
def ActivationKey.le (a b : ActivationKey) : Bool :=
  a.proxy < b.proxy || a.proxy = b.proxy &&
    (a.direction < b.direction || a.direction = b.direction && a.faultType ≤ b.faultType)

def tableSamples (t : MetricTables) : List Sample :=
  ((t.proxies.rows.mergeSort fun a b => a.1 ≤ b.1).flatMap proxySamples ++ overflowSamples t.proxies.overflow) ++
    ((t.activations.rows.mergeSort fun a b => a.1.le b.1).map activationSample ++
      otherActivationSamples t.activations.overflow)

/-! ### Live proxies -/

/-- What a live connection has queued in a direction. -/
def queuedOf (counts : Slots) : Nat := counts.1.toNat - satAdd counts.2.1.toNat counts.2.2.toNat

/-- What the live connections of a proxy have queued. -/
def liveQueueBytes (connections : List LiveConnection) (proxy : String) (side : Slots × Slots → Slots) : Nat :=
  connections.foldl (fun total c =>
    match c.evidence with
    | some counts => if c.proxy = proxy then satAdd total (queuedOf (side counts)) else total
    | none => total) 0

def liveSamples (connections : List LiveConnection) (proxy : LiveProxy) : List Sample :=
  [⟨"eggchaos_proxy_connections_active", [("proxy", proxy.name)], proxy.active⟩,
    ⟨"eggchaos_proxy_policy_generation", [("proxy", proxy.name), ("direction", "upstream")],
      proxy.upstreamGeneration.toNat⟩,
    ⟨"eggchaos_proxy_policy_generation", [("proxy", proxy.name), ("direction", "downstream")],
      proxy.downstreamGeneration.toNat⟩,
    ⟨"eggchaos_proxy_queue_bytes", [("proxy", proxy.name), ("direction", "upstream")],
      liveQueueBytes connections proxy.name (·.1)⟩,
    ⟨"eggchaos_proxy_queue_bytes", [("proxy", proxy.name), ("direction", "downstream")],
      liveQueueBytes connections proxy.name (·.2)⟩]

/-! ### Datagram proxies -/

def datagramHelp : List SampleLine :=
  describe "eggchaos_datagram_associations_active" "Active UDP client associations" "gauge" ++
  describe "eggchaos_datagram_evidence" "Current plus retained association evidence; kind labels are fixed" "gauge" ++
  describe "eggchaos_datagram_fault_activations" "Current plus retained datagram fault activations" "gauge" ++
  describe "eggchaos_datagram_proxy_drops" "Proxy-level UDP admission/drop observations" "gauge" ++
  describe "eggchaos_datagram_administrative_discards" "Queued datagrams discarded by operator lifecycle actions"
    "gauge"

/-- The twelve kinds of evidence, each with the field it totals. -/
def evidenceKinds : List (String × (DatagramEvidence → Nat)) := [
  ("ingress_datagrams", (·.admittedDatagrams)), ("ingress_bytes", (·.admittedBytes)),
  ("egress_datagrams", (·.emittedDatagrams)), ("egress_bytes", (·.emittedBytes)),
  ("configured_loss", (·.configuredLoss)), ("queue_overflow", (·.queueOverflow)),
  ("duplicated_copies", (·.duplicatedCopies)), ("corrupted_candidates", (·.corruptedCandidates)),
  ("queued_datagrams", (·.queuedDatagrams)), ("queued_bytes", (·.queuedBytes)),
  ("high_water_datagrams", (·.highWaterDatagrams)), ("high_water_bytes", (·.highWaterBytes))]

/-- `DATAGRAM_FAULT_TYPE_NAMES`. -/
def datagramFaultTypeNames : List (String × Fin 6) :=
  ["delay", "loss", "duplicate", "reorder", "payload-corrupt", "bandwidth"].zip (List.finRange 6)

theorem datagramFaultTypeNames_eq : datagramFaultTypeNames =
    [("delay", 0), ("loss", 1), ("duplicate", 2), ("reorder", 3), ("payload-corrupt", 4), ("bandwidth", 5)] := by decide

/-- A saturating total. -/
def totalOf {α : Type} (l : List α) (count : α → Nat) : Nat := l.foldl (fun total a => satAdd total (count a)) 0

def directionSamples (proxy direction : String) (evidence : List DatagramEvidence) : List Sample :=
  evidenceKinds.map (fun kind =>
    ⟨"eggchaos_datagram_evidence", [("proxy", proxy), ("direction", direction), ("kind", kind.1)],
      totalOf evidence kind.2⟩) ++
  datagramFaultTypeNames.map fun fault =>
    ⟨"eggchaos_datagram_fault_activations", [("proxy", proxy), ("direction", direction), ("fault_type", fault.1)],
      totalOf evidence (·.faultActivations fault.2)⟩

def datagramSamples (associations : List AssociationCounts) (proxy : DatagramProxyCounts) : List Sample :=
  let own := associations.filter (·.proxy = proxy.name)
  let drops (kind : String) (value : Nat) : Sample :=
    ⟨"eggchaos_datagram_proxy_drops", [("proxy", proxy.name), ("kind", kind)], value⟩
  [⟨"eggchaos_datagram_associations_active", [("proxy", proxy.name)], proxy.activeAssociations⟩,
    drops "oversize" proxy.oversizeDatagrams, drops "capacity_rejection" proxy.associationCapacityRejections,
    drops "ingress_queue_overflow" proxy.ingressQueueOverflow,
    drops "association_setup_failure" proxy.associationSetupFailures,
    ⟨"eggchaos_datagram_administrative_discards", [("proxy", proxy.name)], totalOf own (·.administrativeDiscards)⟩] ++
  (directionSamples proxy.name "upstream" (own.map (·.upstreamEvidence)) ++
    directionSamples proxy.name "downstream" (own.map (·.downstreamEvidence)))

/-! ### The text -/

def metricsLines (v : MetricsView) : List SampleLine :=
  processLines v ++ (tableSamples v.tables).map .sample ++
    ((v.proxies.mergeSort fun a b => a.name ≤ b.name).flatMap (liveSamples v.connections)).map .sample ++
    (datagramHelp ++ (v.datagramProxies.flatMap (datagramSamples v.associations)).map .sample)

def metricsText (v : MetricsView) : String := String.ofList (writeText (metricsLines v))

/-! ## Series -/

/-- The series of samples that all have a proxy in front, without it. -/
def familyOf (samples : List Sample) : List Series := samples.map fun s => (s.metric, s.labels.tail)

def proxyFamily : List Series := familyOf (proxySamples ("", {}))

/-- What the overflow has of it. -/
def overflowFamily : List Series :=
  familyOf (connectionSamples "" {} ++
    (streamLossSamples "" "upstream" (0, 0, 0) ++ streamLossSamples "" "downstream" (0, 0, 0)))

def liveFamily : List Series := familyOf (liveSamples [] ⟨"", 0, 0, 0⟩)

def datagramFamily : List Series := familyOf (datagramSamples [] ⟨"", 0, 0, 0, 0, 0⟩)

theorem proxySamples_series (row : String × PerProxyMetrics) :
    (proxySamples row).map Sample.series = proxyFamily.map (withLabel "proxy" row.1) := by
  simp only [proxyFamily, familyOf, proxySamples, connectionSamples, proxyByteSamples, streamLossSamples,
    List.cons_append, List.nil_append, List.map_cons, List.map_nil, List.tail_cons, Sample.series, withLabel]

theorem overflowSamples_series (entry : PerProxyMetrics) : (overflowSamples entry).map Sample.series =
    if 0 < entry.accepted + entry.completed then overflowFamily.map (withLabel "proxy" "_overflow") else [] := by
  unfold overflowSamples
  split
  · simp only [overflowFamily, familyOf, connectionSamples, streamLossSamples, List.cons_append, List.nil_append,
      List.map_cons, List.map_nil, List.tail_cons, Sample.series, withLabel]
  · rfl

theorem liveSamples_series (connections : List LiveConnection) (proxy : LiveProxy) :
    (liveSamples connections proxy).map Sample.series = liveFamily.map (withLabel "proxy" proxy.name) := by
  simp only [liveFamily, familyOf, liveSamples, List.map_cons, List.map_nil, List.tail_cons, Sample.series, withLabel]

theorem datagramSamples_series (associations : List AssociationCounts) (proxy : DatagramProxyCounts) :
    (datagramSamples associations proxy).map Sample.series = datagramFamily.map (withLabel "proxy" proxy.name) := by
  simp only [datagramFamily, familyOf, datagramSamples, directionSamples, evidenceKinds, datagramFaultTypeNames_eq,
    List.cons_append, List.nil_append, List.map_cons, List.map_nil, List.tail_cons, Sample.series, withLabel]

theorem families_plain :
    (proxyFamily ++ overflowFamily ++ liveFamily ++ datagramFamily).all plainSeries = true := by decide

theorem proxyFamily_nodup : proxyFamily.Nodup := by decide
theorem liveFamily_nodup : liveFamily.Nodup := by decide
theorem datagramFamily_nodup : datagramFamily.Nodup := by decide

/-! ### The lines about no proxy -/

def blankView : MetricsView := ⟨0, fun _ => 0, 0, 0, 0, 0, .empty, [], [], [], []⟩

def processSeries : List Series := ((processLines blankView).filterMap SampleLine.sample?).map Sample.series

/-- They are the same ones, whatever the numbers. -/
theorem processLines_outline (v w : MetricsView) :
    ((processLines v).filterMap SampleLine.sample?).map Sample.series =
        ((processLines w).filterMap SampleLine.sample?).map Sample.series ∧
      (processLines v).filterMap SampleLine.comment? = (processLines w).filterMap SampleLine.comment? := by
  simp only [processLines, describe, measured, outcomeClassNames_eq, List.flatten_cons, List.flatten_nil,
    List.cons_append, List.nil_append, List.append_nil, List.map_cons, List.map_nil, List.filterMap_cons,
    List.filterMap_nil, SampleLine.sample?, SampleLine.comment?, Sample.series, and_self]

theorem processLines_series (v : MetricsView) :
    ((processLines v).filterMap SampleLine.sample?).map Sample.series = processSeries :=
  (processLines_outline v blankView).1

theorem processSeries_plain : processSeries.all plainSeries = true := by decide

theorem processSeries_nodup : processSeries.Nodup := by decide

theorem comments_oneLine :
    ((processLines blankView ++ datagramHelp).filterMap SampleLine.comment?).all oneLine = true := by decide

/-! ### All series -/

def metricsSamples (v : MetricsView) : List Sample := (metricsLines v).filterMap SampleLine.sample?

theorem samples_of_lines (samples : List Sample) :
    (samples.map SampleLine.sample).filterMap SampleLine.sample? = samples ∧
      (samples.map SampleLine.sample).filterMap SampleLine.comment? = [] := by
  induction samples with
  | nil => exact ⟨rfl, rfl⟩
  | cons s samples ih =>
    rw [List.map_cons, List.filterMap_cons, List.filterMap_cons]
    exact ⟨congrArg (s :: ·) ih.1, ih.2⟩

theorem metricsLines_comments (v : MetricsView) : (metricsLines v).filterMap SampleLine.comment? =
    (processLines blankView ++ datagramHelp).filterMap SampleLine.comment? := by
  simp only [metricsLines, List.filterMap_append, (samples_of_lines _).2, List.append_nil,
    (processLines_outline v blankView).2]

def tableSeries (t : MetricTables) : List Series := (tableSamples t).map Sample.series

theorem metricsSamples_eq (v : MetricsView) : metricsSamples v =
    (processLines v).filterMap SampleLine.sample? ++ (tableSamples v.tables ++
      ((v.proxies.mergeSort fun a b => a.name ≤ b.name).flatMap (liveSamples v.connections) ++
        v.datagramProxies.flatMap (datagramSamples v.associations))) := by
  have hhelp : datagramHelp.filterMap SampleLine.sample? = [] := rfl
  simp only [metricsSamples, metricsLines, List.filterMap_append, (samples_of_lines _).1, hhelp, List.nil_append,
    List.append_assoc]

theorem metricsSamples_series (v : MetricsView) : (metricsSamples v).map Sample.series =
    processSeries ++ (tableSeries v.tables ++
      (labeled "proxy" ((v.proxies.mergeSort fun a b => a.name ≤ b.name).map (·.name)) liveFamily ++
        labeled "proxy" (v.datagramProxies.map (·.name)) datagramFamily)) := by
  simp only [metricsSamples_eq, List.map_append, processLines_series, tableSeries, List.map_flatMap,
    liveSamples_series, datagramSamples_series, labeled, List.flatMap_map]

theorem tableSeries_eq (t : MetricTables) : tableSeries t =
    (labeled "proxy" ((t.proxies.rows.mergeSort fun a b => a.1 ≤ b.1).map (·.1)) proxyFamily ++
      (overflowSamples t.proxies.overflow).map Sample.series) ++
    (((t.activations.rows.mergeSort fun a b => a.1.le b.1).map activationSample).map Sample.series ++
      (otherActivationSamples t.activations.overflow).map Sample.series) := by
  simp only [tableSeries, tableSamples, List.map_append, List.map_flatMap, proxySamples_series, labeled,
    List.flatMap_map]

/-! ## Names -/

/-- The characters that `validate` asks for in a name. -/
def IsName (name : String) : Prop := name.toList.all ProxySpec.isNameChar = true

/-- Names are valid and their own, and activations are of a direction and a type. -/
structure MetricsView.Named (v : MetricsView) : Prop where
  tables : v.tables.proxies.keys.Nodup ∧ ∀ name ∈ v.tables.proxies.keys, IsName name
  activations : v.tables.activations.keys.Nodup ∧ ∀ key ∈ v.tables.activations.keys,
    IsName key.proxy ∧ key.direction ∈ ["upstream", "downstream"] ∧ key.faultType ∈ faultTypeNames.toList
  proxies : (v.proxies.map (·.name)).Nodup ∧ ∀ name ∈ v.proxies.map (·.name), IsName name
  datagrams : (v.datagramProxies.map (·.name)).Nodup ∧ ∀ name ∈ v.datagramProxies.map (·.name), IsName name

theorem IsName.plain {name : String} (h : IsName name) : Plain name := by
  refine List.all_eq_true.2 fun c hc => ?_
  have hname := List.all_eq_true.1 h c hc
  simp only [ProxySpec.isNameChar, Bool.or_eq_true, decide_eq_true_eq] at hname
  rcases hname with ((hname | rfl) | rfl) | rfl
  · rw [isPlain, hname, Bool.true_or]
  · decide
  · decide
  · decide

theorem writable_labeled {names : List String} {family : List Series} (hnames : ∀ name ∈ names, IsName name)
    (hfamily : family.all plainSeries = true) : ∀ s ∈ labeled "proxy" names family, WritableSeries s := by
  intro s hs
  obtain ⟨name, hname, t, ht, rfl⟩ := mem_labeled.1 hs
  exact (writable_of_plain (List.all_eq_true.1 hfamily t ht)).withLabel (by decide) (hnames name hname).plain

theorem activation_writable {key : ActivationKey} (hproxy : Plain key.proxy) (hdirection : Plain key.direction)
    (htype : Plain key.faultType) (count : UInt64) : WritableSeries (activationSample (key, count)).series := by
  have hmetric : WritableSeries ("eggchaos_fault_activations_total",
      [("proxy", ""), ("direction", ""), ("fault_type", "")]) := writable_of_plain (by decide)
  refine ⟨hmetric.nonempty, hmetric.metric, ?_, ?_⟩
  · intro label hlabel
    obtain ⟨name, hname, heq⟩ : ∃ name ∈ ["proxy", "direction", "fault_type"], label.1 = name := by
      simp only [activationSample, Sample.series, List.mem_cons, List.not_mem_nil, or_false] at hlabel
      rcases hlabel with rfl | rfl | rfl <;> simp
    rw [heq]
    exact hmetric.names (name, "") (by simpa using hname)
  · simp only [activationSample, Sample.series, List.forall_mem_cons]
    exact ⟨hproxy, hdirection, htype, List.forall_mem_nil _⟩

theorem vocabulary_plain :
    (["_overflow", "upstream", "downstream"] ++ faultTypeNames.toList).all plainBytes = true := by decide

theorem plain_of_vocabulary {text : String} (h : text ∈ ["_overflow", "upstream", "downstream"] ++ faultTypeNames.toList) :
    Plain text := plain_of_bytes (List.all_eq_true.1 vocabulary_plain text h)

theorem overflowSeries_family {overflow : PerProxyMetrics} {s : Series}
    (h : s ∈ (overflowSamples overflow).map Sample.series) :
    ∃ t ∈ overflowFamily, withLabel "proxy" "_overflow" t = s := by
  rw [overflowSamples_series] at h
  split at h
  · exact List.mem_map.1 h
  · cases h

/-- All that is written can be read back. -/
theorem metricsSeries_writable {v : MetricsView} (h : v.Named) :
    ∀ s ∈ (metricsSamples v).map Sample.series, WritableSeries s := by
  have hfamilies := families_plain
  simp only [List.all_append, Bool.and_eq_true] at hfamilies
  obtain ⟨⟨⟨hproxy, hoverflow⟩, hlive⟩, hdatagram⟩ := hfamilies
  rw [metricsSamples_series, tableSeries_eq]
  intro s hs
  simp only [List.mem_append] at hs
  rcases hs with hs | ((hs | hs) | (hs | hs)) | hs | hs
  · exact writable_of_plain (List.all_eq_true.1 processSeries_plain s hs)
  · refine writable_labeled (fun name hname => h.tables.2 name ?_) hproxy s hs
    obtain ⟨row, hrow, rfl⟩ := List.mem_map.1 hname
    exact List.mem_map_of_mem (List.mem_mergeSort.1 hrow)
  · obtain ⟨t, ht, rfl⟩ := overflowSeries_family hs
    exact (writable_of_plain (List.all_eq_true.1 hoverflow t ht)).withLabel (by decide)
      (plain_of_vocabulary (by simp))
  · obtain ⟨sample, hsample, rfl⟩ := List.mem_map.1 hs
    obtain ⟨row, hrow, rfl⟩ := List.mem_map.1 hsample
    obtain ⟨hname, hdirection, htype⟩ := h.activations.2 row.1 (List.mem_map_of_mem (List.mem_mergeSort.1 hrow))
    exact activation_writable hname.plain (plain_of_vocabulary (by simp at hdirection ⊢; tauto))
      (plain_of_vocabulary (List.mem_append_right _ htype)) row.2
  · obtain ⟨sample, hsample, rfl⟩ := List.mem_map.1 hs
    unfold otherActivationSamples at hsample
    split at hsample
    · rw [List.mem_singleton.1 hsample]
      have hplain : Plain "_overflow" := plain_of_vocabulary (by simp)
      exact activation_writable hplain hplain hplain _
    · cases hsample
  · refine writable_labeled (fun name hname => h.proxies.2 name ?_) hlive s hs
    obtain ⟨proxy, hproxy, rfl⟩ := List.mem_map.1 hname
    exact List.mem_map_of_mem (List.mem_mergeSort.1 hproxy)
  · exact writable_labeled h.datagrams.2 hdatagram s hs

theorem metricsLines_writable {v : MetricsView} (h : v.Named) : ∀ l ∈ metricsLines v, l.Writable := by
  intro l hl
  cases l with
  | comment text =>
    have hmem : text ∈ (metricsLines v).filterMap SampleLine.comment? := List.mem_filterMap.2 ⟨_, hl, rfl⟩
    rw [metricsLines_comments] at hmem
    exact no_newline_of_oneLine (List.all_eq_true.1 comments_oneLine text hmem)
  | sample s =>
    have hmem : s ∈ metricsSamples v := List.mem_filterMap.2 ⟨_, hl, rfl⟩
    exact metricsSeries_writable h s.series (List.mem_map_of_mem hmem)

/-! ## Each series once -/

/-- The series of the tables' overflow is there, and some proxy has its name. -/
def overflowNamed (t : MetricTables) : Prop :=
  0 < t.proxies.overflow.accepted + t.proxies.overflow.completed ∧ "_overflow" ∈ t.proxies.keys

theorem metrics_apart :
    processSeries.all (fun s => s.2.head?.map (·.1) ≠ some "proxy") = true ∧
    (proxyFamily ++ overflowFamily).all
      (fun s => s.1 ≠ "eggchaos_fault_activations_total" && !((liveFamily ++ datagramFamily).map (·.1)).contains s.1) =
        true ∧
    ((liveFamily ++ datagramFamily).map (·.1)).contains "eggchaos_fault_activations_total" = false ∧
    datagramFamily.all (fun s => !(liveFamily.map (·.1)).contains s.1) = true ∧
    overflowFamily.all (proxyFamily.contains ·) = true := by
  decide

theorem metric_of_labeled {names : List String} {family : List Series} {s : Series}
    (h : s ∈ labeled "proxy" names family) : ∃ t ∈ family, t.1 = s.1 := by
  obtain ⟨name, _, t, ht, rfl⟩ := mem_labeled.1 h
  exact ⟨t, ht, rfl⟩

theorem overflowFamily_nodup : overflowFamily.Nodup := by decide

/-- The series of an activation. -/
def activationSeries (key : ActivationKey) : Series := (activationSample (key, 0)).series

theorem activationSeries_injective : Function.Injective activationSeries := by
  rintro ⟨proxy, direction, type⟩ ⟨proxy', direction', type'⟩ h
  simpa [activationSeries, activationSample, Sample.series] using h

/-- The keys that have an activation line. -/
def activationKeys (t : BoundedTable ActivationKey UInt64) : List ActivationKey :=
  (t.rows.mergeSort fun a b => a.1.le b.1).map (·.1) ++
    if 0 < t.overflow then [⟨"_overflow", "_overflow", "_overflow"⟩] else []

theorem activationKeys_series (t : BoundedTable ActivationKey UInt64) :
    ((t.rows.mergeSort fun a b => a.1.le b.1).map activationSample).map Sample.series ++
      (otherActivationSamples t.overflow).map Sample.series = (activationKeys t).map activationSeries := by
  unfold otherActivationSamples activationKeys
  rw [List.map_append, List.map_map, List.map_map]
  congr 1
  split <;> rfl

theorem activationKeys_nodup {t : BoundedTable ActivationKey UInt64} (hkeys : t.keys.Nodup)
    (hdirection : ∀ key ∈ t.keys, key.direction ∈ ["upstream", "downstream"]) : (activationKeys t).Nodup := by
  have hperm : ((t.rows.mergeSort fun a b => a.1.le b.1).map (·.1)).Perm t.keys := (List.mergeSort_perm _ _).map _
  rw [activationKeys, List.nodup_append']
  refine ⟨hperm.nodup_iff.2 hkeys, ?_, ?_⟩
  · split
    · exact List.nodup_singleton _
    · exact List.nodup_nil
  · intro key hkey hother
    split at hother
    · rw [List.mem_singleton.1 hother] at hkey
      have hno := hdirection _ (hperm.mem_iff.1 hkey)
      simp at hno
    · cases hother

/-- A proxy's series and the overflow's are different, unless they go by one name. -/
theorem proxySeries_nodup {t : MetricTables} (hkeys : t.proxies.keys.Nodup) :
    (labeled "proxy" ((t.proxies.rows.mergeSort fun a b => a.1 ≤ b.1).map (·.1)) proxyFamily ++
      (overflowSamples t.proxies.overflow).map Sample.series).Nodup ↔ ¬ overflowNamed t := by
  have hperm : ((t.proxies.rows.mergeSort fun a b => a.1 ≤ b.1).map (·.1)).Perm t.proxies.keys :=
    (List.mergeSort_perm _ _).map _
  rw [overflowSamples_series, List.nodup_append']
  by_cases hshown : 0 < t.proxies.overflow.accepted + t.proxies.overflow.completed
  · rw [if_pos hshown]
    constructor
    · rintro ⟨-, -, hdisjoint⟩ ⟨-, hname⟩
      have hfirst : ("eggchaos_proxy_connections_accepted_total", []) ∈ overflowFamily := List.mem_cons_self
      refine hdisjoint (mem_labeled.2 ⟨"_overflow", hperm.mem_iff.2 hname, _, ?_, rfl⟩) (List.mem_map_of_mem hfirst)
      exact List.contains_iff_mem.1 (List.all_eq_true.1 metrics_apart.2.2.2.2 _ hfirst)
    · intro hno
      refine ⟨nodup_labeled _ (hperm.nodup_iff.2 hkeys) proxyFamily_nodup,
        overflowFamily_nodup.map (withLabel_injective _ _), ?_⟩
      intro s hs hs'
      obtain ⟨name, hname, t', _, rfl⟩ := mem_labeled.1 hs
      obtain ⟨t'', _, heq⟩ := List.mem_map.1 hs'
      have hlabel : ("proxy", "_overflow") = ("proxy", name) := (List.cons.inj (congrArg Prod.snd heq)).1
      have hsame : "_overflow" = name := congrArg Prod.snd hlabel
      exact hno ⟨hshown, hsame ▸ hperm.mem_iff.1 hname⟩
  · rw [if_neg hshown]
    simp only [overflowNamed, hshown, false_and, not_false_eq_true, iff_true]
    exact ⟨nodup_labeled _ (hperm.nodup_iff.2 hkeys) proxyFamily_nodup, List.nodup_nil, List.disjoint_nil_right _⟩

theorem proxySeries_family {rows : List (String × PerProxyMetrics)} {overflow : PerProxyMetrics} {s : Series}
    (h : s ∈ labeled "proxy" (rows.map (·.1)) proxyFamily ++ (overflowSamples overflow).map Sample.series) :
    ∃ name, ∃ t ∈ proxyFamily ++ overflowFamily, withLabel "proxy" name t = s := by
  rcases List.mem_append.1 h with h | h
  · obtain ⟨name, _, t, ht, rfl⟩ := mem_labeled.1 h
    exact ⟨name, t, List.mem_append_left _ ht, rfl⟩
  · obtain ⟨t, ht, rfl⟩ := overflowSeries_family h
    exact ⟨_, t, List.mem_append_right _ ht, rfl⟩

theorem proxyMetric_apart {t : Series} (h : t ∈ proxyFamily ++ overflowFamily) :
    t.1 ≠ "eggchaos_fault_activations_total" ∧
      ((liveFamily ++ datagramFamily).map (·.1)).contains t.1 = false := by
  obtain ⟨hactivation, hother⟩ := Bool.and_eq_true_iff.1 (List.all_eq_true.1 metrics_apart.2.1 t h)
  exact ⟨of_decide_eq_true hactivation, by rwa [Bool.not_eq_true'] at hother⟩

/-- The tables' series are of a proxy, and of metrics of their own. -/
theorem tableSeries_metrics (t : MetricTables) : ∀ s ∈ tableSeries t,
    s.2.head?.map (·.1) = some "proxy" ∧ ((liveFamily ++ datagramFamily).map (·.1)).contains s.1 = false := by
  intro s hs
  rw [tableSeries_eq, activationKeys_series] at hs
  rcases List.mem_append.1 hs with hs | hs
  · obtain ⟨name, t', ht', rfl⟩ := proxySeries_family hs
    exact ⟨rfl, (proxyMetric_apart ht').2⟩
  · obtain ⟨key, _, rfl⟩ := List.mem_map.1 hs
    exact ⟨rfl, metrics_apart.2.2.1⟩

theorem tableSeries_nodup {t : MetricTables} (hproxies : t.proxies.keys.Nodup) (hkeys : t.activations.keys.Nodup)
    (hdirection : ∀ key ∈ t.activations.keys, key.direction ∈ ["upstream", "downstream"]) :
    (tableSeries t).Nodup ↔ ¬ overflowNamed t := by
  rw [tableSeries_eq, activationKeys_series, List.nodup_append', proxySeries_nodup hproxies]
  refine ⟨fun h => h.1, fun h => ⟨h, ?_, ?_⟩⟩
  · exact (activationKeys_nodup hkeys hdirection).map activationSeries_injective
  · intro s hs hactivation
    obtain ⟨name, t', ht', rfl⟩ := proxySeries_family hs
    obtain ⟨key, _, heq⟩ := List.mem_map.1 hactivation
    exact (proxyMetric_apart ht').1 (congrArg Prod.fst heq).symm

theorem gaugeSeries_metrics {v : MetricsView} {s : Series}
    (h : s ∈ labeled "proxy" ((v.proxies.mergeSort fun a b => a.name ≤ b.name).map (·.name)) liveFamily ++
      labeled "proxy" (v.datagramProxies.map (·.name)) datagramFamily) :
    s.2.head?.map (·.1) = some "proxy" ∧ ((liveFamily ++ datagramFamily).map (·.1)).contains s.1 = true := by
  rw [List.contains_iff_mem]
  rcases List.mem_append.1 h with h | h
  · obtain ⟨name, _, t, ht, rfl⟩ := mem_labeled.1 h
    exact ⟨rfl, List.mem_map.2 ⟨t, List.mem_append_left _ ht, rfl⟩⟩
  · obtain ⟨name, _, t, ht, rfl⟩ := mem_labeled.1 h
    exact ⟨rfl, List.mem_map.2 ⟨t, List.mem_append_right _ ht, rfl⟩⟩

theorem gaugeSeries_nodup {v : MetricsView} (h : v.Named) :
    (labeled "proxy" ((v.proxies.mergeSort fun a b => a.name ≤ b.name).map (·.name)) liveFamily ++
      labeled "proxy" (v.datagramProxies.map (·.name)) datagramFamily).Nodup := by
  have hlive : ((v.proxies.mergeSort fun a b => a.name ≤ b.name).map (·.name)).Nodup :=
    ((List.mergeSort_perm _ _).map _).nodup_iff.2 h.proxies.1
  rw [List.nodup_append']
  refine ⟨nodup_labeled _ hlive liveFamily_nodup, nodup_labeled _ h.datagrams.1 datagramFamily_nodup, ?_⟩
  intro s hs hs'
  obtain ⟨t, ht, heq⟩ := metric_of_labeled hs
  obtain ⟨t', ht', heq'⟩ := metric_of_labeled hs'
  have happart := List.all_eq_true.1 metrics_apart.2.2.2.1 t' ht'
  have hmem : t'.1 ∈ liveFamily.map (·.1) := by
    rw [heq', ← heq]
    exact List.mem_map_of_mem ht
  rw [List.contains_iff_mem.2 hmem] at happart
  cases happart

/-- No series is there twice, unless a proxy has the overflow's name. -/
theorem metricsSeries_nodup {v : MetricsView} (h : v.Named) :
    ((metricsSamples v).map Sample.series).Nodup ↔ ¬ overflowNamed v.tables := by
  rw [metricsSamples_series, List.nodup_append', List.nodup_append',
    tableSeries_nodup h.tables.1 h.activations.1 fun key hkey => (h.activations.2 key hkey).2.1]
  refine ⟨fun h => h.2.1.1, fun hno => ⟨processSeries_nodup, ⟨hno, gaugeSeries_nodup h, ?_⟩, ?_⟩⟩
  · intro s hs hs'
    have htable := (tableSeries_metrics v.tables s hs).2
    rw [(gaugeSeries_metrics hs').2] at htable
    cases htable
  · intro s hs hs'
    have hprocess := of_decide_eq_true (List.all_eq_true.1 metrics_apart.1 s hs)
    rcases List.mem_append.1 hs' with hs' | hs'
    · exact hprocess (tableSeries_metrics v.tables s hs').1
    · exact hprocess (gaugeSeries_metrics hs').1

theorem readText_metricsText {v : MetricsView} (h : v.Named) :
    readText (metricsText v).toList = some (metricsSamples v) := by
  rw [metricsText, String.toList_ofList]
  exact readText_writeText (metricsLines_writable h)

/-- The text is read back to the samples that were written, of each series one unless
a proxy has the name that the overflow goes by. -/
theorem metrics_text_reads {v : MetricsView} (h : v.Named) :
    readText (metricsText v).toList = some (metricsSamples v) ∧
      (((metricsSamples v).map Sample.series).Nodup ↔ ¬ overflowNamed v.tables) :=
  ⟨readText_metricsText h, metricsSeries_nodup h⟩

/-- A proxy called like the overflow, and an overflow. -/
def overflowTables : MetricTables := ⟨⟨[("_overflow", { accepted := 1 })], { accepted := 1 }⟩, .empty 0⟩

theorem metrics_text_reads_overflow :
    ¬ ((metricsSamples { blankView with tables := overflowTables }).map Sample.series).Nodup := by
  have hname : IsName "_overflow" := by unfold IsName; decide
  have hnamed : MetricsView.Named { blankView with tables := overflowTables } := by
    refine ⟨⟨List.nodup_singleton _, ?_⟩, ⟨List.nodup_nil, ?_⟩, ⟨List.nodup_nil, ?_⟩, ⟨List.nodup_nil, ?_⟩⟩
    · exact List.forall_mem_singleton.2 hname
    all_goals exact List.forall_mem_nil _
  rw [(metrics_text_reads hnamed).2, not_not]
  exact ⟨by decide, List.mem_singleton.2 rfl⟩

end Eggchaos
