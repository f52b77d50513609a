import Eggchaos.Created
import Eggchaos.DurationText
import Eggchaos.ScheduleWire
/-!
# Configuration files

`NativeConfig` of `config.rs`, read from TOML by a parser that is a parameter: what
`parse` checks, the definitions a configuration is compiled into, and the service
that `serve` builds of them.

`parse` accepts a configuration of the right version exactly if its admin may bind
and `serve` can build its service, but for a bound on datagram proxies that is
tighter than the runtime's; and all that the service then holds is valid
(`parse_ok_iff`).
-/

namespace Eggchaos
open Lib

/-- `NativeConfigError`, of what the TOML reader and the file system do not refuse. -/
inductive NativeConfigError where
  | toml (message : String)
  | version (found : UInt32)
  | field (field message : String)
deriving DecidableEq, Repr

/-! ## Faults -/

def nativeDefaultBufferBytes : UInt64 := 64 * 1024
def nativeDefaultBandwidthBytesPerSecond : UInt64 := 1
def nativeDefaultBandwidthBurstBytes : UInt64 := 64 * 1024
def nativeDefaultLimitBytes : UInt64 := 1
def nativeDefaultSliceAverageSize : UInt64 := 1024

structure FaultFileConfig where
  id : String
  direction : Direction
  kind : String
  probability : Binary64 := some 1
  delay : Option String := none
  jitter : Option String := none
  maxBufferBytes : Option UInt64 := none
  bytesPerSecond : Option UInt64 := none
  burstBytes : Option UInt64 := none
  bytes : Option UInt64 := none
  averageSize : Option UInt64 := none
  variation : Option UInt64 := none
  hardReset : Bool := false
  lossRate : Option Binary64 := none
  correlation : Option Binary64 := none
deriving DecidableEq, Repr

namespace FaultFileConfig

/-- The duration of a field in nanoseconds, zero where the field is left out. What
`parse_duration` returns is in the range of `to_ns`. -/
def duration (value : Option String) (field : String) : Except NativeConfigError UInt64 :=
  match value with
  | none => .ok 0
  | some text => ((parseDuration text).mapError (.field field)).map UInt64.ofNat

/-- The same, where nothing is nothing. -/
def duration? (value : Option String) (field : String) : Except NativeConfigError (Option UInt64) :=
  match value with
  | none => .ok none
  | some text => ((parseDuration text).mapError (.field field)).map fun ns => some (UInt64.ofNat ns)

/-- A field that a fault of this type must have. -/
def required (value : Option Binary64) (field message : String) : Except NativeConfigError Binary64 :=
  match value with
  | none => .error (.field field message)
  | some value => .ok value

/-- The fault that the type's name asks for. -/
def wireKind (fault : FaultFileConfig) : Except NativeConfigError FaultKindV1 :=
  match fault.kind with
  | "latency" => do
    let delay ← duration fault.delay "fault.delay"
    let jitter ← duration fault.jitter "fault.jitter"
    return .latency delay jitter (fault.maxBufferBytes.getD nativeDefaultBufferBytes)
  | "bandwidth" =>
    let bytesPerSecond := fault.bytesPerSecond.getD nativeDefaultBandwidthBytesPerSecond
    let burstBytes := fault.burstBytes.getD nativeDefaultBandwidthBurstBytes
    return .bandwidth bytesPerSecond burstBytes
  | "blackhole" | "timeout" => do
    let closeAfter ← duration? fault.delay "fault.delay"
    return .blackhole closeAfter
  | "limit_data" | "limit-data" => return .limitData (fault.bytes.getD nativeDefaultLimitBytes)
  | "slow_close" | "slow-close" => do
    let delay ← duration fault.delay "fault.delay"
    return .slowClose delay
  | "slicer" | "slice" => do
    let delay ← duration fault.delay "fault.delay"
    return .slice (fault.averageSize.getD nativeDefaultSliceAverageSize) (fault.variation.getD 0) delay
  | "disconnect" | "reset_peer" => do
    let after ← duration fault.delay "fault.delay"
    return .disconnect after fault.hardReset
  | "stream-loss" => do
    let lossRate ← required fault.lossRate "fault.loss_rate" "loss_rate is required for stream-loss"
    let correlation ← required fault.correlation "fault.correlation" "correlation is required for stream-loss"
    return .streamLoss lossRate correlation
  | other => .error (.field "fault.type" ("unsupported type " ++ other))

/-- The first word of a message names the field. -/
def kindError (message : String) : NativeConfigError :=
  let word := message.toList.takeWhile (· ≠ ' ')
  if ' ' ∈ message.toList then
    .field ("fault." ++ String.ofList word) (String.ofList (message.toList.drop (word.length + 1)))
  else .field "fault.kind" message

/-- `FaultFileConfig::compile`. -/
def compile (fault : FaultFileConfig) : Except NativeConfigError FaultSpec := do
  let id ← (FaultId.new fault.id).mapError fun e => .field "fault.id" e.message
  let probability ← (Probability.new fault.probability).mapError fun e => .field "fault.probability" e.message
  let kind ← fault.wireKind
  let kind ← kind.intoCore.mapError kindError
  return ⟨id, probability, kind⟩

end FaultFileConfig

/-! ## Stream proxies -/

structure ProxyFileConfig where
  name : String
  listen : SocketAddr
  upstream : SocketAddr
  connectTimeoutMs : UInt64 := UInt64.ofNat nativeDefaultProxyTimeoutMs
  seed : UInt64 := 0
  enabled : Bool := true
  maxConnections : Option Nat := none
  faults : List FaultFileConfig := []
deriving DecidableEq, Repr

/-- `ProxyFileConfig::compile`. The loop compiles the faults in order and parts them by
direction. -/
def ProxyFileConfig.compile (config : ProxyFileConfig) : Except NativeConfigError ProxySpec := do
  let faults ← config.faults.mapM fun fault => fault.compile.map (fault.direction, ·)
  let upstream := (faults.filter (·.1 = .upstream)).map (·.2)
  let downstream := (faults.filter (·.1 ≠ .upstream)).map (·.2)
  let upstream ← (FaultPlan.new upstream).mapError fun e => .field "fault" e.message
  let downstream ← (FaultPlan.new downstream).mapError fun e => .field "fault" e.message
  let proxy := { ProxySpec.new config.name config.listen config.upstream with
    enabled := config.enabled
    maxConnections := config.maxConnections
    connectTimeout := config.connectTimeoutMs.toNat * 1000000
    seed := config.seed
    upstreamFaults := upstream
    downstreamFaults := downstream }
  proxy.validate.mapError fun e => .field "proxy" (invalidProxyText e)
  return proxy

/-! ## Datagram proxies -/

/-- `DatagramRuntimeLimits`, and `DatagramRuntimeConfigV1` with the same fields. -/
structure DatagramRuntimeLimits where
  maxProxies : Nat := 128
  maxAssociations : Nat := 4096
  history : Nat := 1024
  ingressPerAssociation : Nat := 16
  maxIngressQueueBytes : Nat := 64 * 1024 * 1024
deriving DecidableEq, Repr

/-- `DatagramRuntimeLimits::validate`. -/
def DatagramRuntimeLimits.validate (limits : DatagramRuntimeLimits) : Except String DatagramRuntimeLimits :=
  if limits.maxProxies = 0 ∨ 1024 < limits.maxProxies then .error "max_proxies must be 1..=1024"
  else if limits.maxAssociations = 0 ∨ 65536 < limits.maxAssociations then .error "max_associations must be 1..=65536"
  else if 65536 < limits.history then .error "history exceeds 65536 entries"
  else if limits.ingressPerAssociation = 0 ∨ 1024 < limits.ingressPerAssociation then
    .error "ingress_per_association must be 1..=1024"
  else if limits.maxIngressQueueBytes = 0 ∨ 1073741824 < limits.maxIngressQueueBytes then
    .error "max_ingress_queue_bytes must be 1..=1073741824"
  else .ok limits

/-- The text of `DatagramRuntimeError::Invalid`. -/
def invalidDatagramText (message : String) : String := "invalid datagram proxy: " ++ message

/-- `NativeDatagramProxyRequestV1`, and the `DatagramProxyFileConfig` with the same fields. -/
structure NativeDatagramProxyRequestV1 where
  name : String
  listen : SocketAddr
  upstream : SocketAddr
  maxAssociations : Nat := 256
  associationIdleTimeoutMs : UInt64 := 60000
  maxQueuedDatagrams : UInt64 := 1024
  maxQueuedBytes : UInt64 := 4 * 1024 * 1024
  maxDatagramSize : UInt64 := 65507
  seed : UInt64 := 0
  upstreamFaults : List DatagramFaultSpecV1 := []
  downstreamFaults : List DatagramFaultSpecV1 := []
deriving DecidableEq, Repr

abbrev DatagramProxyFileConfig := NativeDatagramProxyRequestV1

structure DatagramProxyCoreParts where
  name : String
  listen : SocketAddr
  upstream : SocketAddr
  maxAssociations : Nat
  associationIdleTimeoutMs : UInt64
  queueLimits : DatagramQueueLimits
  seed : UInt64
  upstreamFaults : List DatagramFaultSpec
  downstreamFaults : List DatagramFaultSpec
deriving DecidableEq, Repr

/-- The queue limits of a request. -/
def NativeDatagramProxyRequestV1.queueLimits (request : NativeDatagramProxyRequestV1) :
    Except String DatagramQueueLimits := do
  let maxQueuedDatagrams ← Wire.nonzero "max_queued_datagrams must be nonzero" request.maxQueuedDatagrams
  let maxQueuedBytes ← Wire.nonzero "max_queued_bytes must be nonzero" request.maxQueuedBytes
  let maxDatagramBytes ← Wire.nonzero "max_datagram_size must be nonzero" request.maxDatagramSize
  (⟨maxQueuedDatagrams, maxQueuedBytes, maxDatagramBytes⟩ : DatagramQueueLimits).validate

/-- `NativeDatagramProxyRequestV1::into_core_parts`. -/
def NativeDatagramProxyRequestV1.intoCoreParts (request : NativeDatagramProxyRequestV1) :
    Except String DatagramProxyCoreParts := do
  validateProxyName request.name
  if request.maxAssociations = 0 ∨ maxConnectionLimit < request.maxAssociations then
    .error ("max_associations must be in 1..=" ++ toString maxConnectionLimit)
  else if request.associationIdleTimeoutMs = 0 ∨ 86400000 < request.associationIdleTimeoutMs then
    .error "association_idle_timeout_ms must be in 1..=86400000"
  else do
    let queueLimits ← request.queueLimits
    let upstream ← request.upstreamFaults.mapM DatagramFaultSpecV1.intoCore
    let downstream ← request.downstreamFaults.mapM DatagramFaultSpecV1.intoCore
    checkDistinct DatagramFaultSpec.id
      (fun _ => "datagram fault IDs must be unique across directions for path lookup") (fun _ => .ok ())
      [] (upstream ++ downstream)
    let _ ← DatagramPlan.new upstream
    let _ ← DatagramPlan.new downstream
    return ⟨request.name, request.listen, request.upstream, request.maxAssociations, request.associationIdleTimeoutMs,
      queueLimits, request.seed, upstream, downstream⟩

structure DatagramProxySpec where
  name : String
  listen : SocketAddr
  upstream : SocketAddr
  maxAssociations : Nat
  associationIdleTimeout : Nat
  queueLimits : DatagramQueueLimits
  upstreamPolicy : PublishedDatagramPolicy
  downstreamPolicy : PublishedDatagramPolicy
  seed : UInt64

namespace DatagramProxySpec

/-- `DatagramProxySpec::validate`. -/
def validate (spec : DatagramProxySpec) (globalAssociations : Nat) : Except String Unit :=
  if spec.name = "" ∨ 128 < spec.name.utf8ByteSize ∨ ¬ spec.name.toList.all ProxySpec.isNameChar then
    .error "proxy name must match [A-Za-z0-9._-]+ and be 1..=128 bytes"
  else if spec.maxAssociations = 0 ∨ globalAssociations < spec.maxAssociations then
    .error "per-proxy associations must be nonzero and no greater than the global limit"
  else if spec.associationIdleTimeout < 1000000 ∨ 86400 * 10 ^ 9 < spec.associationIdleTimeout then
    .error "association idle timeout must be 1 ms..=24 hours"
  else do
    let _ ← spec.queueLimits.validate
    spec.upstreamPolicy.plan.validate
    spec.downstreamPolicy.plan.validate
    if spec.upstream.port = 0 ∨ spec.upstream.ip.isUnspecified ∨ spec.upstream.ip.isMulticast ∨
        spec.upstream.ip.isBroadcast then
      .error "upstream must be a concrete unicast socket address with a nonzero port"
    else if spec.listen.ip.isMulticast ∨ spec.listen.ip.isBroadcast then
      .error "listen address must be unicast or unspecified"
    else .ok ()

/-- `DatagramLivePolicy::new`, of a plan that has passed validation. -/
def policyOf (faults : List DatagramFaultSpec) (seedNamespace : UInt64) : Except String PublishedDatagramPolicy :=
  match h : DatagramPlan.validate ⟨faults⟩ with
  | .error e => .error e
  | .ok () => .ok ⟨1, ⟨faults⟩, seedNamespace, one_le_u64Max, h⟩

/-- `datagram_proxy_request_into_spec`. -/
def ofRequest (request : NativeDatagramProxyRequestV1) : Except String DatagramProxySpec := do
  let parts ← request.intoCoreParts
  let queueLimits ← parts.queueLimits.validate.mapError invalidDatagramText
  let upstreamPolicy ← policyOf parts.upstreamFaults parts.seed
  let downstreamPolicy ← policyOf parts.downstreamFaults parts.seed
  let spec : DatagramProxySpec := {
    name := parts.name
    listen := parts.listen
    upstream := parts.upstream
    maxAssociations := parts.maxAssociations
    associationIdleTimeout := parts.associationIdleTimeoutMs.toNat * 1000000
    queueLimits, upstreamPolicy, downstreamPolicy
    seed := parts.seed }
  (spec.validate 65536).mapError invalidDatagramText
  return spec

end DatagramProxySpec

/-- `DatagramProxyFileConfig::compile`. -/
def compileDatagram (config : DatagramProxyFileConfig) : Except NativeConfigError DatagramProxySpec :=
  (DatagramProxySpec.ofRequest config).mapError (.field ("datagram_proxies." ++ config.name))

/-! ## Configurations -/

structure AdminFileConfig where
  bind : SocketAddr := ⟨.v4 127 0 0 1, 8475⟩
  publicAdmin : Bool := false
  authToken : Option String := none
deriving DecidableEq, Repr

structure RuntimeConfigV1 where
  globalConnections : Nat := 1024
  history : Nat := 256
  relayBufferBytes : UInt64 := nativeDefaultBufferBytes
  terminationGraceMs : UInt64 := UInt64.ofNat nativeDefaultProxyTimeoutMs
  datagram : DatagramRuntimeLimits := {}
deriving DecidableEq, Repr

structure AdmissionLimits where
  globalConnections : Nat
  history : Nat
deriving DecidableEq, Repr

def maxHistoryLimit : Nat := 1000000
def maxRelayBufferBytes : Nat := 16 * 1024 * 1024

namespace RuntimeConfigV1

def validate (config : RuntimeConfigV1) : Except String Unit :=
  if config.globalConnections = 0 ∨ maxConnectionLimit < config.globalConnections then
    .error ("runtime.global_connections must be in 1..=" ++ toString maxConnectionLimit)
  else if maxHistoryLimit < config.history then .error ("runtime.history must be at most " ++ toString maxHistoryLimit)
  else if config.relayBufferBytes = 0 ∨ maxRelayBufferBytes < config.relayBufferBytes.toNat then
    .error ("runtime.relay_buffer_bytes must be in 1..=" ++ toString maxRelayBufferBytes)
  else if maxTimeoutMs < config.terminationGraceMs.toNat then
    .error ("runtime.termination_grace_ms must be at most " ++ toString maxTimeoutMs)
  else if config.datagram.maxProxies = 0 ∨ config.datagram.maxAssociations = 0 ∨ config.datagram.history = 0 ∨
      config.datagram.ingressPerAssociation = 0 ∨ config.datagram.maxIngressQueueBytes = 0 then
    .error "runtime.datagram limits must be non-zero"
  else .ok ()

/-- `relay_buffer`, on a platform whose `usize` has 64 bits. -/
def relayBuffer (config : RuntimeConfigV1) : Except String NonZeroU64 :=
  if maxRelayBufferBytes < config.relayBufferBytes.toNat then
    .error ("runtime.relay_buffer_bytes must be at most " ++ toString maxRelayBufferBytes)
  else Wire.nonzero "runtime.relay_buffer_bytes must be non-zero" config.relayBufferBytes

/-- `termination_grace`, in nanoseconds. -/
def terminationGrace (config : RuntimeConfigV1) : Except String Nat :=
  if maxTimeoutMs < config.terminationGraceMs.toNat then
    .error ("runtime.termination_grace_ms must be at most " ++ toString maxTimeoutMs)
  else .ok (config.terminationGraceMs.toNat * 1000000)

/-- `runtime_admission_limits`. -/
def admissionLimits (config : RuntimeConfigV1) : Except String AdmissionLimits := do
  config.validate
  return ⟨config.globalConnections, config.history⟩

/-- `runtime_datagram_limits`. -/
def datagramLimits (config : RuntimeConfigV1) : Except String DatagramRuntimeLimits :=
  config.datagram.validate.mapError invalidDatagramText

end RuntimeConfigV1

structure NativeConfig where
  version : UInt32
  seed : UInt64 := 0
  admin : AdminFileConfig := {}
  runtime : RuntimeConfigV1 := {}
  proxies : List ProxyFileConfig := []
  datagramProxies : List DatagramProxyFileConfig := []
deriving DecidableEq, Repr

namespace NativeConfig

/-- A datagram definition, checked against the bound on all associations. -/
def checkedDatagram (global : DatagramRuntimeLimits) (proxy : DatagramProxyFileConfig) :
    Except NativeConfigError DatagramProxySpec := do
  let compiled ← compileDatagram proxy
  (compiled.validate global.maxAssociations).mapError fun e =>
    .field ("datagram_proxies." ++ proxy.name) (invalidDatagramText e)
  return compiled

/-- `NativeConfig::parse`, after the TOML reader. -/
def check (config : NativeConfig) : Except NativeConfigError Unit :=
  if config.version ≠ 1 then .error (.version config.version)
  else if ¬ config.admin.bind.ip.isLoopback ∧ (¬ config.admin.publicAdmin ∨ config.admin.authToken.all (· = "")) then
    .error (.field "admin" "non-loopback admin requires public_admin=true and a non-empty auth_token")
  else if 1024 < config.proxies.length then .error (.field "proxy" "too many proxies")
  else if 128 < config.datagramProxies.length then .error (.field "datagram_proxies" "too many datagram proxies")
  else do
    let _ ← config.runtime.admissionLimits.mapError (.field "runtime")
    let _ ← config.runtime.relayBuffer.mapError (.field "runtime.relay_buffer_bytes")
    let _ ← config.runtime.terminationGrace.mapError (.field "runtime.termination_grace_ms")
    let _ ← config.runtime.datagramLimits.mapError (.field "runtime.datagram")
    if config.runtime.datagram.maxProxies < config.datagramProxies.length then
      .error (.field "datagram_proxies" "datagram proxy count exceeds runtime.datagram.max_proxies")
    else do
      checkDistinct ProxyFileConfig.name (fun name => .field "proxy.name" ("duplicate proxy " ++ name))
        (fun proxy => proxy.compile.map fun _ => ()) [] config.proxies
      checkDistinct NativeDatagramProxyRequestV1.name
        (fun name => .field "datagram_proxies.name" ("duplicate datagram proxy " ++ name))
        (fun proxy => do
          let global ← config.runtime.datagramLimits.mapError (.field "runtime.datagram")
          let _ ← checkedDatagram global proxy) [] config.datagramProxies

def parse (toml : String → Except String NativeConfig) (text : String) : Except NativeConfigError NativeConfig := do
  let config ← (toml text).mapError .toml
  config.check
  return config

/-- `compile_proxies`. -/
def compileProxies (config : NativeConfig) : Except NativeConfigError (List ProxySpec) :=
  config.proxies.mapM ProxyFileConfig.compile

/-- `compile_datagram_proxies`. -/
def compileDatagramProxies (config : NativeConfig) : Except NativeConfigError (List DatagramProxySpec) := do
  let global ← config.runtime.datagramLimits.mapError (.field "runtime.datagram")
  config.datagramProxies.mapM (checkedDatagram global)

end NativeConfig

/-! ## The service -/

inductive EggchaosError where
  | invalidProxy (message : String)
  | duplicateProxy (name : String)
  | control (e : ControlError)
  | io (context source : String)
deriving DecidableEq, Repr

/-- `RuntimeParams`; the half-close policy is always to drain here. -/
structure RuntimeParams where
  seed : UInt64
  limits : AdmissionLimits
  relayBuffer : NonZeroU64
  termGrace : Nat
  datagramLimits : DatagramRuntimeLimits
deriving DecidableEq, Repr

/-- A `ServiceBuilder` with everything set, and the `EggchaosService` that it builds. -/
structure EggchaosService where
  params : RuntimeParams
  proxies : List ProxySpec
  datagramProxies : List DatagramProxySpec

/-- How `validate` of a definition fails a builder. -/
def EggchaosError.ofInvalid : ControlError → EggchaosError
  | .invalid message => .invalidProxy message
  | e => .control e

/-- A definition passes, then its name is taken. -/
def checkDefinitions : List String → List ProxySpec → Except EggchaosError Unit
  | _, [] => .ok ()
  | names, proxy :: proxies => do
    proxy.validate.mapError .ofInvalid
    if proxy.name ∈ names then .error (.duplicateProxy proxy.name)
    else checkDefinitions (proxy.name :: names) proxies

/-- `ServiceBuilder::build`. -/
def EggchaosService.build (service : EggchaosService) : Except EggchaosError EggchaosService :=
  if 1024 < service.proxies.length then
    .error (.invalidProxy "stream proxy definitions exceed the 1024 proxy limit")
  else do
    checkDefinitions [] service.proxies
    checkDistinct DatagramProxySpec.name .duplicateProxy (fun _ => .ok ()) [] service.datagramProxies
    if service.params.limits.globalConnections = 0 ∨ maxConnectionLimit < service.params.limits.globalConnections ∨
        maxHistoryLimit < service.params.limits.history then
      .error (.invalidProxy "runtime connection/history limit is outside the supported range")
    else if maxRelayBufferBytes < service.params.relayBuffer.get ∨
        maxControlTimeoutMs < service.params.termGrace / 1000000 then
      .error (.invalidProxy "runtime buffer/grace setting is outside the supported range")
    else do
      let _ ← service.params.datagramLimits.validate.mapError fun e => .invalidProxy (invalidDatagramText e)
      if service.params.datagramLimits.maxProxies < service.datagramProxies.length then
        .error (.invalidProxy "datagram proxy definitions exceed the configured proxy limit")
      else .ok service

/-- What `serve` can fail with before it starts the service. -/
inductive ServeError where
  | config (e : NativeConfigError)
  | runtime (message : String)
  | service (e : EggchaosError)
deriving DecidableEq, Repr

/-- `serve`, from the configuration to the service that it starts. -/
def NativeConfig.service (config : NativeConfig) : Except ServeError EggchaosService := do
  let proxies ← config.compileProxies.mapError .config
  let datagramProxies ← config.compileDatagramProxies.mapError .config
  let limits ← config.runtime.admissionLimits.mapError fun e => .runtime ("invalid runtime config: " ++ e)
  let relayBuffer ← config.runtime.relayBuffer.mapError fun e => .runtime ("invalid runtime config: " ++ e)
  let termGrace ← config.runtime.terminationGrace.mapError fun e => .runtime ("invalid runtime config: " ++ e)
  let datagramLimits ←
    config.runtime.datagramLimits.mapError fun e => .runtime ("invalid datagram runtime config: " ++ e)
  let params : RuntimeParams := ⟨config.seed, limits, relayBuffer, termGrace, datagramLimits⟩
  (EggchaosService.build ⟨params, proxies, datagramProxies⟩).mapError .service

/-! ## What is compiled -/

theorem ProxyFileConfig.compile_ok {config : ProxyFileConfig} {spec : ProxySpec} (h : config.compile = .ok spec) :
    spec.validate = .ok () ∧ spec.name = config.name := by
  obtain ⟨faults, -, h⟩ := bind_ok_iff.1 h
  obtain ⟨upstream, -, h⟩ := bind_ok_iff.1 h
  obtain ⟨downstream, -, h⟩ := bind_ok_iff.1 h
  obtain ⟨_, hvalid, h⟩ := bind_ok_iff.1 h
  cases h
  exact ⟨mapError_ok_iff.1 hvalid, rfl⟩

theorem NativeDatagramProxyRequestV1.intoCoreParts_name {request : NativeDatagramProxyRequestV1}
    {parts : DatagramProxyCoreParts} (h : request.intoCoreParts = .ok parts) : parts.name = request.name := by
  obtain ⟨_, -, h⟩ := bind_ok_iff.1 h
  obtain ⟨-, h⟩ := refuse_ok_iff.1 h
  obtain ⟨-, h⟩ := refuse_ok_iff.1 h
  obtain ⟨queueLimits, -, h⟩ := bind_ok_iff.1 h
  obtain ⟨upstream, -, h⟩ := bind_ok_iff.1 h
  obtain ⟨downstream, -, h⟩ := bind_ok_iff.1 h
  obtain ⟨_, -, h⟩ := bind_ok_iff.1 h
  obtain ⟨_, -, h⟩ := bind_ok_iff.1 h
  obtain ⟨_, -, h⟩ := bind_ok_iff.1 h
  cases h
  rfl

theorem compileDatagram_name {config : DatagramProxyFileConfig} {spec : DatagramProxySpec}
    (h : compileDatagram config = .ok spec) : spec.name = config.name := by
  obtain ⟨parts, hparts, h⟩ := bind_ok_iff.1 (mapError_ok_iff.1 h)
  obtain ⟨queueLimits, -, h⟩ := bind_ok_iff.1 h
  obtain ⟨upstreamPolicy, -, h⟩ := bind_ok_iff.1 h
  obtain ⟨downstreamPolicy, -, h⟩ := bind_ok_iff.1 h
  obtain ⟨_, -, h⟩ := bind_ok_iff.1 h
  cases h
  exact NativeDatagramProxyRequestV1.intoCoreParts_name hparts

namespace NativeConfig

theorem checkedDatagram_ok {global : DatagramRuntimeLimits} {config : DatagramProxyFileConfig}
    {spec : DatagramProxySpec} (h : checkedDatagram global config = .ok spec) :
    spec.validate global.maxAssociations = .ok () ∧ spec.name = config.name := by
  obtain ⟨compiled, hcompiled, h⟩ := bind_ok_iff.1 h
  obtain ⟨_, hvalid, h⟩ := bind_ok_iff.1 h
  cases h
  exact ⟨mapError_ok_iff.1 hvalid, compileDatagram_name hcompiled⟩

end NativeConfig

/-! ## What the builder takes -/

/-- The builder looks at a definition first and at its name second. -/
theorem checkDefinitions_ok_iff {names : List String} {proxies : List ProxySpec} :
    checkDefinitions names proxies = .ok () ↔
      (∀ proxy ∈ proxies, proxy.name ∉ names ∧ proxy.validate = .ok ()) ∧ (proxies.map (·.name)).Nodup := by
  have hsame : ∀ names, checkDefinitions names proxies = .ok () ↔
      checkDistinct ProxySpec.name (fun _ => "") (fun proxy => proxy.validate.mapError fun _ => "") names proxies =
        .ok () := by
    induction proxies with
    | nil => simp [checkDefinitions, checkDistinct]
    | cons proxy proxies ih =>
      intro names
      rw [checkDefinitions, checkDistinct, then_ok_iff, refuse_ok_iff, refuse_ok_iff, then_ok_iff, mapError_ok_iff,
        mapError_ok_iff, ih]
      exact and_left_comm
  rw [hsame, checkDistinct_ok_iff]
  simp only [mapError_ok_iff]

/-- All that a service holds is valid, within its own bounds. -/
structure EggchaosService.Valid (service : EggchaosService) : Prop where
  count : service.proxies.length ≤ 1024
  proxies : ∀ proxy ∈ service.proxies, proxy.validate = .ok ()
  names : (service.proxies.map (·.name)).Nodup
  datagramNames : (service.datagramProxies.map (·.name)).Nodup
  connections : 0 < service.params.limits.globalConnections ∧
    service.params.limits.globalConnections ≤ maxConnectionLimit ∧ service.params.limits.history ≤ maxHistoryLimit
  buffers : service.params.relayBuffer.get ≤ maxRelayBufferBytes ∧
    service.params.termGrace / 1000000 ≤ maxControlTimeoutMs
  datagramLimits : service.params.datagramLimits.validate = .ok service.params.datagramLimits
  datagramCount : service.datagramProxies.length ≤ service.params.datagramLimits.maxProxies

theorem DatagramRuntimeLimits.validate_eq {limits limits' : DatagramRuntimeLimits} (h : limits.validate = .ok limits') :
    limits' = limits := by
  simp only [validate, refuse_ok_iff] at h
  exact (Except.ok.inj h.2.2.2.2.2).symm

theorem EggchaosService.build_ok_iff {service built : EggchaosService} :
    service.build = .ok built ↔ service.Valid ∧ built = service := by
  rw [build, refuse_ok_iff, then_ok_iff, checkDefinitions_ok_iff, then_ok_iff, checkDistinct_ok_iff, refuse_ok_iff,
    refuse_ok_iff, bind_ok_iff]
  simp only [mapError_ok_iff, refuse_ok_iff]
  constructor
  · rintro ⟨hcount, ⟨hproxies, hnames⟩, ⟨-, hdatagrams⟩, hconnections, hbuffers, limits, hlimits, hfits, heq⟩
    obtain rfl := DatagramRuntimeLimits.validate_eq hlimits
    refine ⟨⟨by omega, fun proxy hproxy => (hproxies proxy hproxy).2, hnames, hdatagrams, ?_, ?_, hlimits, by omega⟩,
      (Except.ok.inj heq).symm⟩
    · omega
    · omega
  · rintro ⟨h, rfl⟩
    refine ⟨Nat.not_lt.2 h.count, ⟨fun proxy hproxy => ⟨by simp, h.proxies proxy hproxy⟩, h.names⟩,
      ⟨fun _ _ => ⟨by simp, trivial⟩, h.datagramNames⟩, ?_, ?_, _, h.datagramLimits, Nat.not_lt.2 h.datagramCount, rfl⟩
    · have := h.connections
      omega
    · have := h.buffers
      omega

namespace RuntimeConfigV1

theorem relayBuffer_ok {config : RuntimeConfigV1} (h : config.validate = .ok ()) :
    ∃ bytes, config.relayBuffer = .ok bytes ∧ bytes.get ≤ maxRelayBufferBytes := by
  simp only [validate, refuse_ok_iff, not_or] at h
  obtain ⟨-, -, ⟨hzero, hmax⟩, -⟩ := h
  have hpos : 0 < config.relayBufferBytes.toNat := by
    rw [Nat.pos_iff_ne_zero]
    exact fun h0 => hzero (UInt64.toNat_inj.1 h0)
  refine ⟨⟨_, hpos, toNat_le_u64Max _⟩, ?_, Nat.not_lt.1 hmax⟩
  rw [relayBuffer, if_neg hmax, Wire.nonzero, NonZeroU64.new, dif_pos hpos]

theorem terminationGrace_ok {config : RuntimeConfigV1} (h : config.validate = .ok ()) :
    config.terminationGrace = .ok (config.terminationGraceMs.toNat * 1000000) := by
  simp only [validate, refuse_ok_iff] at h
  rw [terminationGrace, if_neg h.2.2.2.1]

end RuntimeConfigV1

/-! ## What a configuration is accepted for -/

namespace NativeConfig

/-- The admin of a configuration, as `serve` starts it. -/
def adminConfig (config : NativeConfig) : AdminConfig :=
  ⟨config.admin.bind, config.admin.publicAdmin, config.admin.authToken⟩

/-- The admin is not refused for where it binds. -/
def AdminBinds (config : NativeConfig) : Prop :=
  ∀ listen, startAdmin config.adminConfig listen ≠ .error .insecurePublicBind

theorem adminBinds_iff {config : NativeConfig} :
    config.AdminBinds ↔ ¬ (¬ config.admin.bind.ip.isLoopback ∧
      (¬ config.admin.publicAdmin ∨ config.admin.authToken.all (· = ""))) := by
  constructor
  · intro h hinsecure
    exact h (fun addr => .ok addr) (if_pos hinsecure)
  · intro hsecure listen hrefused
    have hbinds : ¬ (¬ config.adminConfig.bind.ip.isLoopback ∧
        (¬ config.adminConfig.publicAdmin ∨ config.adminConfig.authToken.all (· = ""))) := hsecure
    rw [startAdmin, if_neg hbinds] at hrefused
    split at hrefused <;> cases hrefused

/-- What compiling asks of the definitions of a configuration. -/
structure Compiles (config : NativeConfig) (proxies : List ProxySpec) (datagramProxies : List DatagramProxySpec) :
    Prop where
  proxies : List.Forall₂ (fun proxy spec => ProxyFileConfig.compile proxy = .ok spec) config.proxies proxies
  datagramProxies : List.Forall₂ (fun proxy spec => checkedDatagram config.runtime.datagram proxy = .ok spec)
    config.datagramProxies datagramProxies

theorem Compiles.names {config : NativeConfig} {proxies : List ProxySpec} {datagramProxies : List DatagramProxySpec}
    (h : config.Compiles proxies datagramProxies) :
    proxies.map (·.name) = config.proxies.map (·.name) ∧
      datagramProxies.map (·.name) = config.datagramProxies.map (·.name) :=
  ⟨map_key_of_forall₂ h.proxies fun _ _ h => (ProxyFileConfig.compile_ok h).2,
    map_key_of_forall₂ h.datagramProxies fun _ _ h => (checkedDatagram_ok h).2⟩

theorem datagramLimits_ok_iff {config : RuntimeConfigV1} {limits : DatagramRuntimeLimits} :
    config.datagramLimits = .ok limits ↔ config.datagram.validate = .ok config.datagram ∧ limits = config.datagram := by
  rw [RuntimeConfigV1.datagramLimits, mapError_ok_iff]
  constructor
  · intro h
    obtain rfl := DatagramRuntimeLimits.validate_eq h
    exact ⟨h, rfl⟩
  · rintro ⟨h, rfl⟩
    exact h

theorem admissionLimits_ok_iff {config : RuntimeConfigV1} {limits : AdmissionLimits} :
    config.admissionLimits = .ok limits ↔
      config.validate = .ok () ∧ limits = ⟨config.globalConnections, config.history⟩ := by
  rw [RuntimeConfigV1.admissionLimits, then_ok_iff]
  exact and_congr_right fun _ => ⟨fun h => (Except.ok.inj h).symm, fun h => h ▸ rfl⟩

/-- What `parse` checks. -/
theorem check_ok_iff {config : NativeConfig} :
    config.check = .ok () ↔ config.version = 1 ∧ config.AdminBinds ∧ config.proxies.length ≤ 1024 ∧
      config.datagramProxies.length ≤ 128 ∧ config.runtime.validate = .ok () ∧
      config.runtime.datagram.validate = .ok config.runtime.datagram ∧
      config.datagramProxies.length ≤ config.runtime.datagram.maxProxies ∧
      (∃ proxies datagramProxies, config.Compiles proxies datagramProxies) ∧
      (config.proxies.map (·.name)).Nodup ∧ (config.datagramProxies.map (·.name)).Nodup := by
  have hproxy : ∀ proxy : ProxyFileConfig,
      proxy.compile.map (fun _ => ()) = .ok () ↔ ∃ spec, proxy.compile = .ok spec := by
    intro proxy
    cases proxy.compile <;> simp [Except.map]
  have hdatagram : ∀ (global : DatagramRuntimeLimits) (proxy : DatagramProxyFileConfig),
      (do let _ ← checkedDatagram global proxy : Except NativeConfigError Unit) = .ok () ↔
        ∃ spec, checkedDatagram global proxy = .ok spec := by
    intro global proxy
    rw [bind_ok_iff]
    exact ⟨fun ⟨spec, h, _⟩ => ⟨spec, h⟩, fun ⟨spec, h⟩ => ⟨spec, h, rfl⟩⟩
  have hcompiles : (∃ proxies datagramProxies, config.Compiles proxies datagramProxies) ↔
      (∀ proxy ∈ config.proxies, ∃ spec, proxy.compile = .ok spec) ∧
        ∀ proxy ∈ config.datagramProxies, ∃ spec, checkedDatagram config.runtime.datagram proxy = .ok spec := by
    rw [← exists_forall₂_iff, ← exists_forall₂_iff]
    exact ⟨fun ⟨_, _, h⟩ => ⟨⟨_, h.proxies⟩, ⟨_, h.datagramProxies⟩⟩, fun ⟨⟨_, h⟩, ⟨_, h'⟩⟩ => ⟨_, _, h, h'⟩⟩
  rw [check, refuse_ok_iff, refuse_ok_iff, refuse_ok_iff, refuse_ok_iff, adminBinds_iff, hcompiles]
  simp only [bind_ok_iff, mapError_ok_iff, admissionLimits_ok_iff, datagramLimits_ok_iff]
  constructor
  · rintro ⟨hversion, hadmin, hcount, hdatagrams, _, ⟨hruntime, -⟩, _, -, _, -, _, ⟨hlimits, rfl⟩, h⟩
    rw [refuse_ok_iff, then_ok_iff, checkDistinct_ok_iff, checkDistinct_ok_iff] at h
    obtain ⟨hfits, ⟨hproxies, hnames⟩, hspecs, hdatagramNames⟩ := h
    refine ⟨not_not.1 hversion, hadmin, Nat.not_lt.1 hcount, Nat.not_lt.1 hdatagrams, hruntime, hlimits,
      Nat.not_lt.1 hfits, ⟨?_, ?_⟩, hnames, hdatagramNames⟩
    · exact fun proxy hmem => (hproxy proxy).1 (hproxies proxy hmem).2
    · intro proxy hmem
      obtain ⟨limits, hok, hspec⟩ := bind_ok_iff.1 (hspecs proxy hmem).2
      obtain ⟨-, rfl⟩ := datagramLimits_ok_iff.1 (mapError_ok_iff.1 hok)
      exact (hdatagram _ proxy).1 hspec
  · rintro ⟨hversion, hadmin, hcount, hdatagrams, hruntime, hlimits, hfits, ⟨hproxies, hspecs⟩, hnames, hdatagramNames⟩
    obtain ⟨bytes, hbytes, -⟩ := RuntimeConfigV1.relayBuffer_ok hruntime
    refine ⟨not_not.2 hversion, hadmin, Nat.not_lt.2 hcount, Nat.not_lt.2 hdatagrams, _, ⟨hruntime, rfl⟩, bytes, hbytes,
      _, RuntimeConfigV1.terminationGrace_ok hruntime, _, ⟨hlimits, rfl⟩, ?_⟩
    rw [refuse_ok_iff, then_ok_iff, checkDistinct_ok_iff, checkDistinct_ok_iff]
    refine ⟨Nat.not_lt.2 hfits, ⟨fun proxy hmem => ⟨by simp, (hproxy proxy).2 (hproxies proxy hmem)⟩, hnames⟩, ?_,
      hdatagramNames⟩
    intro proxy hmem
    refine ⟨by simp, bind_ok_iff.2 ⟨_, mapError_ok_iff.2 (datagramLimits_ok_iff.2 ⟨hlimits, rfl⟩), ?_⟩⟩
    exact (hdatagram _ proxy).2 (hspecs proxy hmem)

/-- The service that `serve` builds, where it builds one. -/
theorem service_ok_iff {config : NativeConfig} {service : EggchaosService} :
    config.service = .ok service ↔
      config.Compiles service.proxies service.datagramProxies ∧ config.runtime.validate = .ok () ∧ service.Valid ∧
        service.params.seed = config.seed ∧
        service.params.limits = ⟨config.runtime.globalConnections, config.runtime.history⟩ ∧
        config.runtime.relayBuffer = .ok service.params.relayBuffer ∧
        config.runtime.terminationGrace = .ok service.params.termGrace ∧
        service.params.datagramLimits = config.runtime.datagram := by
  simp only [NativeConfig.service, bind_ok_iff, mapError_ok_iff, admissionLimits_ok_iff, datagramLimits_ok_iff,
    EggchaosService.build_ok_iff, compileProxies, compileDatagramProxies, mapM_ok_iff]
  constructor
  · rintro ⟨proxies, hproxies, datagrams, ⟨_, ⟨-, rfl⟩, hdatagrams⟩, _, ⟨hruntime, rfl⟩, bytes, hbytes, grace, hgrace,
      _, ⟨-, rfl⟩, hvalid, rfl⟩
    exact ⟨⟨hproxies, hdatagrams⟩, hruntime, hvalid, rfl, rfl, hbytes, hgrace, rfl⟩
  · rintro ⟨hcompiles, hruntime, hvalid, hseed, hlimits, hbytes, hgrace, hdatagramLimits⟩
    have hdatagram := hvalid.datagramLimits
    rw [hdatagramLimits] at hdatagram
    refine ⟨_, hcompiles.proxies, _, ⟨_, ⟨hdatagram, rfl⟩, hcompiles.datagramProxies⟩, _, ⟨hruntime, rfl⟩, _, hbytes, _,
      hgrace, _, ⟨hdatagram, rfl⟩, ?_⟩
    rw [← hseed, ← hlimits, ← hdatagramLimits]
    exact ⟨hvalid, rfl⟩

/-- What the runtime section's checks leave for the builder to find in order. -/
theorem runtime_bounds {config : RuntimeConfigV1} (h : config.validate = .ok ()) :
    0 < config.globalConnections ∧ config.globalConnections ≤ maxConnectionLimit ∧ config.history ≤ maxHistoryLimit ∧
      config.terminationGraceMs.toNat * 1000000 / 1000000 ≤ maxControlTimeoutMs := by
  simp only [RuntimeConfigV1.validate, refuse_ok_iff] at h
  obtain ⟨hconnections, hhistory, -, hgrace, -⟩ := h
  have hsame : maxTimeoutMs = maxControlTimeoutMs := rfl
  omega

/-- What passes `check` builds. -/
theorem service_of_check {config : NativeConfig} (h : config.check = .ok ()) :
    ∃ service, config.service = .ok service := by
  obtain ⟨-, -, hcount, -, hruntime, hlimits, hfits, ⟨proxies, datagramProxies, hcompiles⟩, hnames, hdatagramNames⟩ :=
    check_ok_iff.1 h
  obtain ⟨bytes, hbytes, hmax⟩ := RuntimeConfigV1.relayBuffer_ok hruntime
  obtain ⟨hpositive, hconnections, hhistory, hgrace⟩ := runtime_bounds hruntime
  refine ⟨⟨⟨config.seed, ⟨config.runtime.globalConnections, config.runtime.history⟩, bytes,
    config.runtime.terminationGraceMs.toNat * 1000000, config.runtime.datagram⟩, proxies, datagramProxies⟩, ?_⟩
  refine service_ok_iff.2 ⟨hcompiles, hruntime, ?_, rfl, rfl, hbytes, RuntimeConfigV1.terminationGrace_ok hruntime, rfl⟩
  refine ⟨?_, ?_, ?_, ?_, ⟨hpositive, hconnections, hhistory⟩, ⟨hmax, hgrace⟩, hlimits, ?_⟩
  · exact hcompiles.proxies.length_eq ▸ hcount
  · intro spec hspec
    obtain ⟨proxy, -, hproxy⟩ := exists_of_forall₂ hcompiles.proxies spec hspec
    exact (ProxyFileConfig.compile_ok hproxy).1
  · rw [hcompiles.names.1]
    exact hnames
  · rw [hcompiles.names.2]
    exact hdatagramNames
  · exact hcompiles.datagramProxies.length_eq ▸ hfits

theorem parse_ok {toml : String → Except String NativeConfig} {text : String} {config : NativeConfig} :
    parse toml text = .ok config ↔ toml text = .ok config ∧ config.check = .ok () := by
  rw [parse, bind_ok_iff]
  simp only [mapError_ok_iff, then_ok_iff]
  constructor
  · rintro ⟨config', htoml, hcheck, h⟩
    obtain rfl := Except.ok.inj h
    exact ⟨htoml, hcheck⟩
  · rintro ⟨htoml, hcheck⟩
    exact ⟨config, htoml, hcheck, rfl⟩

/-- `parse` accepts what `serve` can build a service of, with no more than 128 datagram
proxies; the definitions of such a service are the configuration's, all of them valid. -/
theorem parse_ok_iff (toml : String → Except String NativeConfig) (text : String) (config : NativeConfig) :
    (parse toml text = .ok config ↔ toml text = .ok config ∧ config.version = 1 ∧ config.AdminBinds ∧
      config.datagramProxies.length ≤ 128 ∧ ∃ service, config.service = .ok service) ∧
    ∀ service, config.service = .ok service → service.Valid ∧
      service.proxies.map (·.name) = config.proxies.map (·.name) ∧
      service.datagramProxies.map (·.name) = config.datagramProxies.map (·.name) ∧
      ∀ spec ∈ service.datagramProxies, spec.validate service.params.datagramLimits.maxAssociations = .ok () := by
  rw [parse_ok]
  refine ⟨and_congr_right fun _ => ⟨fun h => ?_, ?_⟩, fun service h => ?_⟩
  · obtain ⟨hversion, hadmin, -, hdatagrams, -⟩ := check_ok_iff.1 h
    exact ⟨hversion, hadmin, hdatagrams, service_of_check h⟩
  · rintro ⟨hversion, hadmin, hdatagrams, service, h⟩
    obtain ⟨hcompiles, hruntime, hvalid, -, -, -, -, hlimits⟩ := service_ok_iff.1 h
    refine check_ok_iff.2 ⟨hversion, hadmin, ?_, hdatagrams, hruntime, ?_, ?_, ⟨_, _, hcompiles⟩, ?_, ?_⟩
    · exact hcompiles.proxies.length_eq ▸ hvalid.count
    · exact hlimits ▸ hvalid.datagramLimits
    · rw [hcompiles.datagramProxies.length_eq, ← hlimits]
      exact hvalid.datagramCount
    · rw [← hcompiles.names.1]
      exact hvalid.names
    · rw [← hcompiles.names.2]
      exact hvalid.datagramNames
  · obtain ⟨hcompiles, -, hvalid, -, -, -, -, hlimits⟩ := service_ok_iff.1 h
    refine ⟨hvalid, hcompiles.names.1, hcompiles.names.2, ?_⟩
    intro spec hspec
    obtain ⟨proxy, -, hproxy⟩ := exists_of_forall₂ hcompiles.datagramProxies spec hspec
    rw [hlimits]
    exact (checkedDatagram_ok hproxy).1

end NativeConfig

end Eggchaos
