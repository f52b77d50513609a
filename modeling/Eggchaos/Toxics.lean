import Eggchaos.DatagramControl
import Eggchaos.Wire
/-!
# The toxics of a proxy

The compatibility adapter of `eggchaos-toxiproxy`: a toxic is a native fault under
another vocabulary. `add_toxic`, `update_toxic` and `remove_toxic` on one proxy,
each a few sections that read the proxy or make one native write, so any number of
calls run interleaved.
-/

namespace Eggchaos
open Lib

/-! ## Shapes -/

/-- An `f64`. -/
inductive F64 where
  | finite (value : ℚ)
  | infinite (negative : Bool)
  | nan
deriving DecidableEq, Repr

namespace F64

def isFinite : F64 → Bool
  | finite _ => true
  | infinite _ | nan => false

/-- `clamp(0.0, 1.0)`. -/
def clampUnit : F64 → F64
  | finite value => finite (max 0 (min value 1))
  | infinite negative => finite (if negative then 0 else 1)
  | nan => nan

def toBinary64 : F64 → Binary64
  | finite value => some value
  | infinite _ | nan => none

end F64

structure CompatError where
  status : Nat
  message : String
deriving DecidableEq, Repr

namespace CompatError

def proxyNotFound : CompatError := ⟨404, "proxy not found"⟩
def toxicNotFound : CompatError := ⟨404, "toxic not found"⟩
def toxicExists : CompatError := ⟨409, "toxic already exists"⟩
def invalidType : CompatError := ⟨400, "invalid toxic type"⟩
def invalidStream : CompatError := ⟨400, "stream was invalid, can be either upstream or downstream"⟩

end CompatError

structure ToxicAttributes where
  latency : Option UInt64 := none
  jitter : Option UInt64 := none
  rate : Option UInt64 := none
  averageSize : Option UInt64 := none
  sizeVariation : Option UInt64 := none
  delay : Option UInt64 := none
  timeout : Option UInt64 := none
  bytes : Option UInt64 := none
  lossRate : Option F64 := none
  correlation : Option F64 := none
deriving DecidableEq, Repr

structure Toxic where
  name : Option String
  type : String
  stream : String
  toxicity : F64
  attributes : ToxicAttributes
deriving DecidableEq, Repr

/-- An update; its type and its stream are ignored. -/
structure ToxicUpdate where
  toxicity : Option F64
  attributes : Option ToxicAttributes
deriving DecidableEq, Repr

inductive ToxicNumber where
  | int (value : UInt64)
  | float (value : F64)
deriving DecidableEq, Repr

/-- The JSON object of a toxic in an answer. -/
structure ToxicObject where
  name : String
  type : String
  stream : String
  toxicity : ℚ
  attributes : List (String × ToxicNumber)
deriving DecidableEq, Repr

inductive CompatProfile where
  | strictV2_12
  | postV2_12_2026_09_25
deriving DecidableEq, Repr

def CompatProfile.acceptsPacketLoss : CompatProfile → Bool
  | strictV2_12 => false
  | postV2_12_2026_09_25 => true

/-! ## Translation -/

/-- `str::eq_ignore_ascii_case`. -/
def eqIgnoreAsciiCase (a b : String) : Bool := a.toList.map Char.toLower = b.toList.map Char.toLower

/-- `parse_stream`. -/
def parseStream (stream : String) : Except CompatError Direction :=
  if eqIgnoreAsciiCase stream "upstream" then .ok .upstream
  else if eqIgnoreAsciiCase stream "downstream" then .ok .downstream
  else .error .invalidStream

/-- `clamp_toxicity`. -/
def clampToxicity (toxicity : F64) : Except CompatError F64 :=
  if toxicity.isFinite then .ok toxicity.clampUnit else .error ⟨400, "toxicity must be finite"⟩

def fromMillis (millis : UInt64) : Nat := millis.toNat * 1000000
def fromMicros (micros : UInt64) : Nat := micros.toNat * 1000
def asMillis (duration : Nat) : UInt64 := UInt64.ofNat (min (duration / 1000000) u64Max)
def asMicros (duration : Nat) : UInt64 := UInt64.ofNat (min (duration / 1000) u64Max)

theorem atLeastOne_pos (value : UInt64) : 0 < max value.toNat 1 := lt_of_lt_of_le Nat.one_pos (Nat.le_max_right _ _)

theorem atLeastOne_le (value : UInt64) : max value.toNat 1 ≤ u64Max := max_le (toNat_le_u64Max value) one_le_u64Max

/-- `value.max(1)` as a `NonZeroU64`. -/
def atLeastOne (value : UInt64) : NonZeroU64 := ⟨max value.toNat 1, atLeastOne_pos value, atLeastOne_le value⟩

theorem kibibytes_pos (value : NonZeroU64) : 0 < satMul value.get 1024 :=
  lt_min (Nat.mul_pos value.pos (Nat.succ_pos _)) (lt_of_lt_of_le Nat.one_pos one_le_u64Max)

theorem kibibytes_le (value : NonZeroU64) : satMul value.get 1024 ≤ u64Max := Nat.min_le_right _ _

def kibibytes (value : NonZeroU64) : NonZeroU64 := ⟨satMul value.get 1024, kibibytes_pos value, kibibytes_le value⟩

/-- 64 KiB, the buffer and the burst of a toxic. -/
def toxicBuffer : NonZeroU64 := kibibytes (atLeastOne 64)

/-- `Probability::new` with its error as the adapter reports it. -/
def unitProbability (value : F64) : Except CompatError Probability :=
  (Probability.new value.toBinary64).mapError fun e => ⟨400, e.message⟩

/-- `kind_from_attrs`. -/
def kindFromAttrs (kind : String) (attrs : ToxicAttributes) (profile : CompatProfile) : Except CompatError FaultKind :=
  if kind = "latency" then
    .ok (.latency ⟨fromMillis (attrs.latency.getD 0), fromMillis (attrs.jitter.getD 0), toxicBuffer⟩)
  else if kind = "bandwidth" then .ok (.bandwidth ⟨kibibytes (atLeastOne (attrs.rate.getD 1)), toxicBuffer⟩)
  else if kind = "timeout" then .ok (.blackhole ⟨(attrs.timeout.filter (0 < ·)).map fromMillis⟩)
  else if kind = "slow_close" then .ok (.slowClose ⟨fromMillis (attrs.delay.getD 0)⟩)
  else if kind = "reset_peer" then .ok (.disconnect ⟨fromMillis (attrs.timeout.getD 0), true⟩)
  else if kind = "slicer" then
    .ok (.slice ⟨atLeastOne (attrs.averageSize.getD 1), (attrs.sizeVariation.getD 0).toNat, fromMicros (attrs.delay.getD 0)⟩)
  else if kind = "limit_data" then .ok (.limitData ⟨atLeastOne (attrs.bytes.getD 1)⟩)
  else if kind = "packet_loss" then
    if !profile.acceptsPacketLoss then .error .invalidType
    else do
      let lossRate ← unitProbability (attrs.lossRate.getD (.finite 0)).clampUnit
      let correlation ← unitProbability (attrs.correlation.getD (.finite 0)).clampUnit
      return .streamLoss ⟨lossRate, correlation⟩
  else .error .invalidType

/-- `attrs_from_kind`. The rounding of a rate wraps, as the release build does. -/
def attrsFromKind (kind : FaultKind) (profile : CompatProfile) : Except CompatError (String × ToxicAttributes) :=
  match kind with
  | .latency c => .ok ("latency", { latency := some (asMillis c.delay), jitter := some (asMillis c.jitter) })
  | .bandwidth c => .ok ("bandwidth", { rate := some (max ((c.bytesPerSecond.toUInt64 + 512) / 1024) 1) })
  | .blackhole c => .ok ("timeout", { timeout := some ((c.closeAfter.map asMillis).getD 0) })
  | .limitData c => .ok ("limit_data", { bytes := some c.bytes.toUInt64 })
  | .slowClose c => .ok ("slow_close", { delay := some (asMillis c.delay) })
  | .slice c =>
    .ok ("slicer",
      { averageSize := some c.averageSize.toUInt64
        sizeVariation := some (UInt64.ofNat c.variation)
        delay := some (asMicros c.delay) })
  | .disconnect c => .ok ("reset_peer", { timeout := some (asMillis c.after) })
  | .streamLoss c =>
    if profile.acceptsPacketLoss then
      .ok ("packet_loss", { lossRate := some (.finite c.lossRate.get), correlation := some (.finite c.correlation.get) })
    else .error .invalidType

/-- `attributes_object`. -/
def attributesObject (kind : String) (attrs : ToxicAttributes) : List (String × ToxicNumber) :=
  let get := fun (value : Option UInt64) => ToxicNumber.int (value.getD 0)
  let getF64 := fun (value : Option F64) => ToxicNumber.float (value.getD (.finite 0))
  if kind = "latency" then [("latency", get attrs.latency), ("jitter", get attrs.jitter)]
  else if kind = "bandwidth" then [("rate", get attrs.rate)]
  else if kind = "slow_close" then [("delay", get attrs.delay)]
  else if kind = "timeout" ∨ kind = "reset_peer" then [("timeout", get attrs.timeout)]
  else if kind = "slicer" then
    [("average_size", get attrs.averageSize), ("size_variation", get attrs.sizeVariation), ("delay", get attrs.delay)]
  else if kind = "limit_data" then [("bytes", get attrs.bytes)]
  else if kind = "packet_loss" then [("loss_rate", getF64 attrs.lossRate), ("correlation", getF64 attrs.correlation)]
  else []

/-- `fault_to_toxic`. -/
def faultToToxic (direction : Direction) (fault : FaultSpec) (profile : CompatProfile) : Except CompatError ToxicObject := do
  let (kind, attrs) ← attrsFromKind fault.kind profile
  return ⟨fault.id.value, kind, direction.asStr, fault.probability.get, attributesObject kind attrs⟩

/-- `merge_attributes`: only the attributes of the toxic's own type are taken. -/
def mergeAttributes (kind : String) (base patch : ToxicAttributes) : ToxicAttributes :=
  if kind = "latency" then { latency := patch.latency.or base.latency, jitter := patch.jitter.or base.jitter }
  else if kind = "bandwidth" then { rate := patch.rate.or base.rate }
  else if kind = "slow_close" then { delay := patch.delay.or base.delay }
  else if kind = "timeout" ∨ kind = "reset_peer" then { timeout := patch.timeout.or base.timeout }
  else if kind = "slicer" then
    { averageSize := patch.averageSize.or base.averageSize
      sizeVariation := patch.sizeVariation.or base.sizeVariation
      delay := patch.delay.or base.delay }
  else if kind = "limit_data" then { bytes := patch.bytes.or base.bytes }
  else if kind = "packet_loss" then
    { lossRate := patch.lossRate.or base.lossRate, correlation := patch.correlation.or base.correlation }
  else {}

/-! ## Native reads and writes

A write returns what the adapter is told: the direction and the fault, or an error. -/

/-- `get_fault`: upstream shadows downstream. -/
def ProxySpec.getFault (spec : ProxySpec) (id : String) : Option (Direction × FaultSpec) :=
  match spec.upstreamPolicy.snapshot.plan.get id with
  | some fault => some (.upstream, fault)
  | none => (spec.downstreamPolicy.snapshot.plan.get id).map fun fault => (.downstream, fault)

namespace NativeProxy

variable (name : String) (proxy : Option ProxySpec)

def getFault (id : String) : Option (Direction × FaultSpec) := proxy.bind (·.getFault id)

/-- `add_fault` under the write lock. -/
def addFault (upsert : FaultUpsert) : Option ProxySpec × Except ControlError (Direction × FaultSpec) :=
  match proxy with
  | none => (none, .error (.notFound name))
  | some spec =>
    let written := spec.addFault upsert
    (some written.2, written.1.bind fun _ => upsert.build.map fun fault => (upsert.direction, fault))

/-- `update_fault` under the write lock. -/
def updateFault (id : String) (patch : FaultPatch) : Option ProxySpec × Except ControlError (Direction × FaultSpec) :=
  match proxy with
  | none => (none, .error (.notFound name))
  | some spec =>
    let written := spec.updateFault id patch
    (some written.2, written.1.bind fun _ =>
      match spec.getFault id with
      | none => .error (.notFound s!"fault {id} on {spec.name}")
      | some (direction, existing) => (ProxySpec.patchFault existing patch).map fun fault => (direction, fault))

/-- `remove_fault` under the write lock. -/
def removeFault (id : String) : Option ProxySpec × Except ControlError Unit :=
  match proxy with
  | none => (none, .error (.notFound name))
  | some spec =>
    let written := spec.removeFault id
    (some written.2, written.1.map fun _ => ())

end NativeProxy

/-! ## Calls -/

inductive ToxicOp where
  | add (toxic : Toxic)
  | update (name : String) (patch : ToxicUpdate)
  | remove (name : String)
deriving DecidableEq, Repr

inductive ToxicReply where
  | toxic (object : ToxicObject)
  | removed
deriving DecidableEq, Repr

/-- What a call awaits. -/
inductive ToxicTask where
  /-- `add_toxic` looks for the proxy, and then for a toxic of the name. -/
  | viewing (toxic : Toxic)
  | checking (toxic : Toxic) (direction : Direction) (kind : FaultKind) (name : String)
  | adding (upsert : FaultUpsert)
  | reading (name : String) (patch : ToxicUpdate)
  | updating (name : String) (patch : ToxicUpdate) (change : FaultPatch)
  | removing (name : String)
  /-- There is no such toxic; is there the proxy? -/
  | missing
  | done (result : Except CompatError ToxicReply)
deriving DecidableEq

def ToxicOp.begin : ToxicOp → ToxicTask
  | add toxic => .viewing toxic
  | update name patch => .reading name patch
  | remove name => .removing name

/-- `add_toxic` between its look for the proxy and its look for the name. Clients
send an unset name as the empty string. -/
def Toxic.resolve (toxic : Toxic) (profile : CompatProfile) : Except CompatError (Direction × FaultKind × String) := do
  let direction ← parseStream toxic.stream
  let kind ← kindFromAttrs toxic.type toxic.attributes profile
  return (direction, kind, (toxic.name.filter (· ≠ "")).getD (toxic.type ++ "_" ++ direction.asStr))

/-- `add_toxic` between its look for the name and the write lock, with the checks
that `add_fault` makes before it. -/
def Toxic.upsert (toxic : Toxic) (direction : Direction) (kind : FaultKind) (name : String) : Except CompatError FaultUpsert := do
  let id ← (FaultId.new name).mapError fun e => CompatError.mk 400 e.message
  let probability ← (clampToxicity toxic.toxicity).bind unitProbability
  let upsert : FaultUpsert := { direction, id := id.value, probability := some probability.get, kind }
  match upsert.build with
  | .error (.invalid message) => throw ⟨400, message⟩
  | .error e => throw ⟨400, e.message⟩
  | .ok _ => return upsert

/-- What an update makes of the fault that it has read. -/
def ToxicUpdate.revise (patch : ToxicUpdate) (existing : FaultSpec) (profile : CompatProfile) : Except CompatError FaultPatch := do
  let (kindName, baseAttrs) ← attrsFromKind existing.kind profile
  let merged := match patch.attributes with
    | some attrs => mergeAttributes kindName baseAttrs attrs
    | none => baseAttrs
  let kind ← kindFromAttrs kindName merged profile
  let probability ← (match patch.toxicity with
    | some toxicity => F64.toBinary64 <$> clampToxicity toxicity
    | none => .ok (some existing.probability.get))
  return { probability := some probability, kind := some kind }

/-- The results of the native writes as the adapter reports them. -/
def addedToxic (profile : CompatProfile) : Except ControlError (Direction × FaultSpec) → Except CompatError ToxicReply
  | .ok (direction, fault) => .toxic <$> faultToToxic direction fault profile
  | .error (.notFound _) => .error .proxyNotFound
  | .error (.conflict _) => .error .toxicExists
  | .error (.invalid message) => .error ⟨400, message⟩
  | .error e => .error ⟨400, e.message⟩

def updatedToxic (profile : CompatProfile) : Except ControlError (Direction × FaultSpec) → Except CompatError ToxicReply
  | .ok (direction, fault) => .toxic <$> faultToToxic direction fault profile
  | .error (.notFound _) => .error .toxicNotFound
  | .error (.invalid message) => .error ⟨400, message⟩
  | .error e => .error ⟨400, e.message⟩

namespace ToxicTask

variable (profile : CompatProfile) (name : String) (proxy : Option ProxySpec)

/-- One section of a call. -/
def proceed : ToxicTask → Option ProxySpec × ToxicTask
  | viewing toxic =>
    match proxy with
    | none => (proxy, done (.error .proxyNotFound))
    | some _ =>
      match toxic.resolve profile with
      | .error e => (proxy, done (.error e))
      | .ok (direction, kind, name) => (proxy, checking toxic direction kind name)
  | checking toxic direction kind name =>
    match NativeProxy.getFault proxy name with
    | some _ => (proxy, done (.error .toxicExists))
    | none =>
      match toxic.upsert direction kind name with
      | .error e => (proxy, done (.error e))
      | .ok upsert => (proxy, adding upsert)
  | adding upsert =>
    let written := NativeProxy.addFault name proxy upsert
    (written.1, done (addedToxic profile written.2))
  | reading id patch =>
    match NativeProxy.getFault proxy id with
    | none => (proxy, missing)
    | some (_, existing) =>
      match patch.revise existing profile with
      | .error e => (proxy, done (.error e))
      | .ok change =>
        match change.probability.map checkProbability with
        | some (.error (.invalid message)) => (proxy, done (.error ⟨400, message⟩))
        | _ => (proxy, updating id patch change)
  | updating id _ change =>
    let written := NativeProxy.updateFault name proxy id change
    (written.1, done (updatedToxic profile written.2))
  | removing id =>
    let written := NativeProxy.removeFault name proxy id
    match written.2 with
    | .ok () => (written.1, done (.ok .removed))
    | .error (.notFound _) => (written.1, missing)
    | .error e => (written.1, done (.error ⟨400, e.message⟩))
  | missing => (proxy, done (.error (if proxy.isNone then .proxyNotFound else .toxicNotFound)))
  | done result => (proxy, done result)

/-- The call returned `Ok`. -/
def succeeded : ToxicTask → Bool
  | done (.ok _) => true
  | _ => false

end ToxicTask

/-- A whole call with nothing in between; no call has more than three sections. -/
def ToxicOp.alone (profile : CompatProfile) (name : String) (proxy : Option ProxySpec) (op : ToxicOp) :
    Option ProxySpec × ToxicTask :=
  let first := op.begin.proceed profile name proxy
  let second := first.2.proceed profile name first.1
  second.2.proceed profile name second.1

structure ToxicCall where
  op : ToxicOp
  task : ToxicTask
deriving DecidableEq

/-- One proxy, if it exists, and the calls on it. -/
structure ToxicControl where
  proxy : Option ProxySpec
  calls : List ToxicCall

inductive ToxicEvent where
  | call (op : ToxicOp)
  | proceed (i : Nat)

namespace ToxicControl

variable (profile : CompatProfile) (name : String) (s : ToxicControl)

def step : ToxicEvent → ToxicControl
  | .call op => { s with calls := s.calls ++ [⟨op, op.begin⟩] }
  | .proceed i =>
    match s.calls[i]? with
    | none => s
    | some call =>
      let next := call.task.proceed profile name s.proxy
      { s with proxy := next.1, calls := s.calls.set i { call with task := next.2 } }

end ToxicControl

end Eggchaos
