import Eggchaos.Policy
/-!
# Proxy definitions and their write sections

The stream proxies of the server's `runtime`: a validated definition with its
two live policies, and what the control operations do to one stored proxy while
they hold the write lock. A fault plan is stored twice, in the live policy that
streams compile from and in a mirror beside it, which the publications refresh.
-/

namespace Eggchaos
open Lib

/-! ## Definitions -/

inductive IpAddr where
  | v4 (a b c d : UInt8)
  | v6 (bits : BitVec 128)
deriving DecidableEq, Repr

namespace IpAddr

def isUnspecified : IpAddr → Bool
  | .v4 a b c d => a = 0 && b = 0 && c = 0 && d = 0
  | .v6 bits => bits = 0

def isMulticast : IpAddr → Bool
  | .v4 a _ _ _ => 224 ≤ a && a ≤ 239
  | .v6 bits => bits >>> 120 = 0xff

def isBroadcast : IpAddr → Bool
  | .v4 a b c d => a = 255 && b = 255 && c = 255 && d = 255
  | .v6 _ => false

end IpAddr

structure SocketAddr where
  ip : IpAddr
  port : UInt16
deriving DecidableEq, Repr

inductive ControlError where
  | notFound (name : String)
  | conflict (message : String)
  | invalid (message : String)
  | bindFailed (proxy reason : String)
  | restartFailed (proxy reason : String)
deriving DecidableEq, Repr

/-- The `Display` text. -/
def ControlError.message : ControlError → String
  | .notFound name => "proxy not found: " ++ name
  | .conflict message => "conflict: " ++ message
  | .invalid message => "invalid: " ++ message
  | .bindFailed proxy reason => "bind failed for proxy " ++ proxy ++ ": " ++ reason
  | .restartFailed proxy reason => "restart failed for proxy " ++ proxy ++ ": " ++ reason

/-- A fixed-target proxy. The plan fields mirror the plans of the policies. -/
structure ProxySpec where
  name : String
  listen : SocketAddr
  upstream : SocketAddr
  upstreamFaults : FaultPlan
  downstreamFaults : FaultPlan
  upstreamPolicy : LivePolicy
  downstreamPolicy : LivePolicy
  enabled : Bool
  maxConnections : Option Nat
  connectTimeout : Nat
  seed : UInt64

def maxControlTimeoutMs : Nat := 300000

namespace ProxySpec

/-- A character of a proxy name. -/
def isNameChar (c : Char) : Bool := c.isAlphanum || c = '.' || c = '_' || c = '-'

/-- `ProxySpec::validate`, with its errors as the control operations report
them. -/
def validate (spec : ProxySpec) : Except ControlError Unit :=
  if spec.name = "" ∨ 128 < spec.name.utf8ByteSize then .error (.invalid "proxy name must be 1..=128 bytes")
  else if !spec.name.toList.all isNameChar then .error (.invalid "proxy name must match [A-Za-z0-9._-]+")
  else match spec.upstreamFaults.validate, spec.downstreamFaults.validate with
    | .error e, _ | .ok (), .error e => .error (.invalid ("invalid fault plan: " ++ e.message))
    | .ok (), .ok () =>
      if spec.maxConnections.any fun limit => limit = 0 || 1000000 < limit then
        .error (.invalid "max_connections must be in 1..=1000000")
      else if spec.connectTimeout = 0 then .error (.invalid "connect timeout must be non-zero")
      else if maxControlTimeoutMs < spec.connectTimeout / 1000000 then
        .error (.invalid "connect timeout must be at most 300000 ms")
      else if spec.upstream.ip.isUnspecified || spec.upstream.ip.isMulticast || spec.upstream.ip.isBroadcast then
        .error (.invalid "upstream must be a unicast socket address")
      else if spec.listen.ip.isMulticast || spec.listen.ip.isBroadcast then
        .error (.invalid "listen address must be unicast or unspecified")
      else .ok ()

/-- A policy of a validated plan, at generation one. -/
def policyOf (plan : FaultPlan) (seedNamespace : UInt64) : LivePolicy :=
  match h : plan.validate with
  | .ok () => .new plan seedNamespace h
  | .error _ => .new .empty seedNamespace FaultPlan.validate_empty

/-- `init_policies`. -/
def initPolicies (spec : ProxySpec) (serviceSeed : UInt64) : ProxySpec :=
  { spec with
    upstreamPolicy := policyOf spec.upstreamFaults (serviceSeed ^^^ spec.seed)
    downstreamPolicy := policyOf spec.downstreamFaults (serviceSeed ^^^ spec.seed) }

def policy (spec : ProxySpec) : Direction → LivePolicy
  | .upstream => spec.upstreamPolicy
  | .downstream => spec.downstreamPolicy

def mirror (spec : ProxySpec) : Direction → FaultPlan
  | .upstream => spec.upstreamFaults
  | .downstream => spec.downstreamFaults

def withPolicy (spec : ProxySpec) : Direction → LivePolicy → ProxySpec
  | .upstream, p => { spec with upstreamPolicy := p }
  | .downstream, p => { spec with downstreamPolicy := p }

def withMirror (spec : ProxySpec) : Direction → FaultPlan → ProxySpec
  | .upstream, plan => { spec with upstreamFaults := plan }
  | .downstream, plan => { spec with downstreamFaults := plan }

end ProxySpec

/-! ## Patches -/

structure ProxyPatch where
  listen : Option SocketAddr
  upstream : Option SocketAddr
  enabled : Option Bool
  maxConnections : Option (Option Nat)
  connectTimeoutMs : Option Nat
deriving DecidableEq, Repr

namespace ProxyPatch

/-- The patch changes nothing but `enabled`. -/
def onlyEnabled (patch : ProxyPatch) : Bool :=
  patch.listen.isNone && patch.upstream.isNone && patch.maxConnections.isNone && patch.connectTimeoutMs.isNone

/-- The fields of the patch other than `enabled`, set on a spec. -/
def apply (patch : ProxyPatch) (spec : ProxySpec) : ProxySpec :=
  { spec with
    listen := patch.listen.getD spec.listen
    upstream := patch.upstream.getD spec.upstream
    maxConnections := patch.maxConnections.getD spec.maxConnections
    connectTimeout := (patch.connectTimeoutMs.map (· * 1000000)).getD spec.connectTimeout }

/-- The change needs a new listener. -/
def restarts (patch : ProxyPatch) (spec : ProxySpec) : Bool :=
  patch.listen.any (· ≠ spec.listen) || patch.upstream.any (· ≠ spec.upstream)

end ProxyPatch

/-- A fault to add; a probability that is not finite is `none`. -/
structure FaultUpsert where
  direction : Direction
  id : String
  probability : Option ℚ
  kind : FaultKind
deriving DecidableEq, Repr

structure FaultPatch where
  probability : Option (Option ℚ)
  kind : Option FaultKind
deriving DecidableEq, Repr

/-- `Probability::new` behind the range check of the control operations. -/
def checkProbability (value : Option ℚ) : Except ControlError Probability :=
  match value with
  | none => .error (.invalid "probability must be finite and between 0 and 1")
  | some q =>
    if h : 0 ≤ q ∧ q ≤ 1 then .ok ⟨q, h.1, h.2⟩
    else .error (.invalid "probability must be finite and between 0 and 1")

/-- `build_fault_spec`. -/
def FaultUpsert.build (upsert : FaultUpsert) : Except ControlError FaultSpec :=
  match FaultId.new upsert.id with
  | .error _ => .error (.invalid "fault id must be 1..=128 bytes")
  | .ok id =>
    match checkProbability upsert.probability with
    | .error e => .error e
    | .ok probability => .ok ⟨id, probability, upsert.kind⟩

/-! ## Publications

Each returns what it answers, the plans that it set, and the stored spec after
it. -/

/-- The result of a policy change: the plans it set, or an error. -/
abbrev Published := Except ControlError (List (Direction × FaultPlan)) × ProxySpec

namespace ProxySpec

/-- Publish one direction and refresh its mirror from the published snapshot. -/
def publishDirection (spec : ProxySpec) (direction : Direction) (plan : FaultPlan) (seedNamespace : UInt64) : Published :=
  match (spec.policy direction).publish plan seedNamespace with
  | (.error e, p) => (.error (.invalid e.message), spec.withPolicy direction p)
  | (.ok published, p) =>
    (.ok [(direction, published.plan)], (spec.withPolicy direction p).withMirror direction published.plan)

/-- `add_fault` under the write lock. -/
def addFault (spec : ProxySpec) (upsert : FaultUpsert) : Published :=
  match upsert.build with
  | .error e => (.error e, spec)
  | .ok fault =>
    let base := (spec.policy upsert.direction).snapshot
    if (base.plan.get fault.id.value).isSome then
      (.error (.conflict s!"fault {fault.id.value} already exists on {spec.name}/{upsert.direction.asStr}"), spec)
    else match FaultPlan.new (base.plan.faults ++ [fault]) with
      | .error e => (.error (.invalid e.message), spec)
      | .ok next => spec.publishDirection upsert.direction next base.seedNamespace

/-- The direction that holds a fault of this id, upstream first. -/
def directionOf (spec : ProxySpec) (id : String) : Option Direction :=
  [.upstream, .downstream].find? fun direction => ((spec.policy direction).snapshot.plan.get id).isSome

/-- The fault of a patch. -/
def patchFault (existing : FaultSpec) (patch : FaultPatch) : Except ControlError FaultSpec :=
  match patch.probability with
  | none => .ok { existing with kind := patch.kind.getD existing.kind }
  | some value =>
    match checkProbability value with
    | .error e => .error e
    | .ok probability => .ok { existing with probability, kind := patch.kind.getD existing.kind }

/-- `update_fault` under the write lock: the fault is replaced in its place. The
probability is checked first. -/
def updateFault (spec : ProxySpec) (id : String) (patch : FaultPatch) : Published :=
  match patch.probability.map checkProbability with
  | some (.error e) => (.error e, spec)
  | _ =>
    match spec.directionOf id with
    | none => (.error (.notFound s!"fault {id} on {spec.name}"), spec)
    | some direction =>
      let base := (spec.policy direction).snapshot
      match base.plan.get id with
      | none => (.error (.notFound s!"fault {id} on {spec.name}"), spec)
      | some existing =>
        match patchFault existing patch with
        | .error e => (.error e, spec)
        | .ok fault =>
          match FaultPlan.new (base.plan.faults.set (base.plan.faults.findIdx (·.id.value = id)) fault) with
          | .error e => (.error (.invalid e.message), spec)
          | .ok next => spec.publishDirection direction next base.seedNamespace

/-- `remove_fault` under the write lock. -/
def removeFault (spec : ProxySpec) (id : String) : Published :=
  match spec.directionOf id with
  | none => (.error (.notFound s!"fault {id} on {spec.name}"), spec)
  | some direction =>
    let base := (spec.policy direction).snapshot
    let next := base.plan.withoutFault id
    match next.validate with
    | .error e => (.error (.invalid e.message), spec)
    | .ok () => spec.publishDirection direction next base.seedNamespace

/-- `publish_plans` under the write lock: upstream first, and both mirrors only
when both are published. -/
def publishPlans (spec : ProxySpec) (upstream downstream : FaultPlan) : Published :=
  match upstream.validate, downstream.validate with
  | .error e, _ => (.error (.invalid e.message), spec)
  | .ok (), .error e => (.error (.invalid e.message), spec)
  | .ok (), .ok () =>
    match spec.upstreamPolicy.publish upstream spec.upstreamPolicy.snapshot.seedNamespace with
    | (.error e, p) => (.error (.invalid e.message), spec.withPolicy .upstream p)
    | (.ok up, p) =>
      let spec := spec.withPolicy .upstream p
      match spec.downstreamPolicy.publish downstream spec.downstreamPolicy.snapshot.seedNamespace with
      | (.error e, p) => (.error (.invalid e.message), spec.withPolicy .downstream p)
      | (.ok down, p) =>
        (.ok [(.upstream, up.plan), (.downstream, down.plan)],
          ((spec.withPolicy .downstream p).withMirror .upstream up.plan).withMirror .downstream down.plan)

/-- The conflict text of `publish_direction_expected`. -/
def conflictMessage (proxy : String) (c : PolicyConflict) : String :=
  s!"proxy {proxy} policy moved from generation {c.expected} to {c.found} during the operation; retry from current state"

/-- `publish_direction_expected` under the write lock. -/
def publishDirectionExpected (spec : ProxySpec) (direction : Direction) (plan : FaultPlan) (seedNamespace : UInt64)
    (expected : Nat) : Published :=
  match (spec.policy direction).publishExpected plan seedNamespace expected with
  | (.error (.invalid e), p) => (.error (.invalid e.message), spec.withPolicy direction p)
  | (.error (.conflict c), p) => (.error (.conflict (conflictMessage spec.name c)), spec.withPolicy direction p)
  | (.ok published, p) =>
    (.ok [(direction, published.plan)], (spec.withPolicy direction p).withMirror direction published.plan)

/-- `reset` for one direction: the empty plan under the same namespace, and the
mirror only when that is published. -/
def clearDirection (spec : ProxySpec) (direction : Direction) : List (Direction × FaultPlan) × ProxySpec :=
  match (spec.policy direction).publish .empty (spec.policy direction).snapshot.seedNamespace with
  | (.error _, p) => ([], spec.withPolicy direction p)
  | (.ok _, p) => ([(direction, .empty)], (spec.withPolicy direction p).withMirror direction .empty)

end ProxySpec

/-- A change of the fault plans of a proxy. -/
inductive PolicyChange where
  | addFault (upsert : FaultUpsert)
  | updateFault (id : String) (patch : FaultPatch)
  | removeFault (id : String)
  | publishPlans (upstream downstream : FaultPlan)
  | publishDirectionExpected (direction : Direction) (plan : FaultPlan) (seedNamespace : UInt64) (expected : Nat)
deriving DecidableEq, Repr

def PolicyChange.apply : PolicyChange → ProxySpec → Published
  | .addFault upsert, spec => spec.addFault upsert
  | .updateFault id patch, spec => spec.updateFault id patch
  | .removeFault id, spec => spec.removeFault id
  | .publishPlans upstream downstream, spec => spec.publishPlans upstream downstream
  | .publishDirectionExpected direction plan seedNamespace expected, spec =>
    spec.publishDirectionExpected direction plan seedNamespace expected

end Eggchaos
