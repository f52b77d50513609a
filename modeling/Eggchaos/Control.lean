import Eggchaos.Proxy
import Eggchaos.Lib.Runs
import Mathlib.Data.List.Sort
/-!
# The control plane of the stream proxies

`control.rs` and the accept loop of `supervisor.rs` as one state machine. A
control call awaits the registry lock, a bind, a supervisor's completion or the
task list; between two awaits it is atomic, and any other call or supervisor
may run in between. What a call awaits is its `Task`; a step completes one
await of one call, or lets one supervisor go on.

The service is not shut down. Every stored proxy also says which value each
field of its definition was last asked to have by an operation that was not
refused, which nothing reads.
-/

namespace Eggchaos
open Lib

/-! ## The registry -/

/-- The fields of a definition that operations set. -/
structure SpecFields where
  listen : SocketAddr
  upstream : SocketAddr
  maxConnections : Option Nat
  connectTimeout : Nat
  enabled : Bool
  upstreamFaults : FaultPlan
  downstreamFaults : FaultPlan
deriving DecidableEq, Repr

def ProxySpec.fields (spec : ProxySpec) : SpecFields where
  listen := spec.listen
  upstream := spec.upstream
  maxConnections := spec.maxConnections
  connectTimeout := spec.connectTimeout
  enabled := spec.enabled
  upstreamFaults := spec.upstreamFaults
  downstreamFaults := spec.downstreamFaults

namespace SpecFields

/-- An operation sets these plans. -/
def setPlan (f : SpecFields) : Direction × FaultPlan → SpecFields
  | (.upstream, plan) => { f with upstreamFaults := plan }
  | (.downstream, plan) => { f with downstreamFaults := plan }

def setPlans (f : SpecFields) (plans : List (Direction × FaultPlan)) : SpecFields := plans.foldl setPlan f

/-- An operation sets the fields of a patch other than `enabled`. -/
def setPatch (f : SpecFields) (patch : ProxyPatch) : SpecFields :=
  { f with
    listen := patch.listen.getD f.listen
    upstream := patch.upstream.getD f.upstream
    maxConnections := patch.maxConnections.getD f.maxConnections
    connectTimeout := (patch.connectTimeoutMs.map (· * 1000000)).getD f.connectTimeout }

end SpecFields

/-- A stored proxy: `cancel` is the token of its scope, `done` the supervisor
whose completion flag it holds, if that flag belongs to one. -/
structure ManagedProxy where
  spec : ProxySpec
  running : Bool
  boundAddr : Option SocketAddr
  cancel : Nat
  done : Option Nat
  asked : SpecFields

/-- The proxies by name, each name once. The order in which they are gone through is
that of their names (`ControlState.names`). -/
abbrev Registry := List (String × ManagedProxy)

namespace Registry

def get (r : Registry) (name : String) : Option ManagedProxy := (r.find? (·.1 = name)).map (·.2)

/-- `get_mut`: the entry of this name is changed. -/
def modify (r : Registry) (name : String) (f : ManagedProxy → ManagedProxy) : Registry :=
  r.map fun p => if p.1 = name then (p.1, f p.2) else p

def insert (r : Registry) (name : String) (entry : ManagedProxy) : Registry := r ++ [(name, entry)]

def remove (r : Registry) (name : String) : Registry := r.filter (·.1 ≠ name)

def bytesLe : List UInt8 → List UInt8 → Bool
  | [], _ => true
  | _ :: _, [] => false
  | byte :: bytes, byte' :: bytes' =>
    byte.toNat < byte'.toNat || (byte.toNat = byte'.toNat && bytesLe bytes bytes')

/-- The order of the keys of a `BTreeMap`. -/
def keyLe (name name' : String) : Bool := bytesLe (utf8Bytes name) (utf8Bytes name')

end Registry

def maxStreamProxies : Nat := 1024

/-! ## Supervisors -/

/-- Where an accept loop is. -/
inductive SupervisorPhase where
  /-- About to read its entry. -/
  | looking
  /-- Waiting for a connection or a cancellation. -/
  | accepting
  /-- Out of the loop: children are shut down, records purged. -/
  | closing
  | finished
deriving DecidableEq, Repr

structure Supervisor where
  name : String
  token : Nat
  phase : SupervisorPhase
deriving DecidableEq, Repr

/-- The supervisor has not left its accept loop. -/
def Supervisor.live (s : Supervisor) : Bool := s.phase = .looking || s.phase = .accepting

/-! ## Calls -/

/-- A request of the control plane. -/
inductive ControlRequest where
  | create (spec : ProxySpec)
  | importDefinition (spec : ProxySpec)
  | startAll
  | setEnabled (name : String) (enabled : Bool)
  | update (name : String) (patch : ProxyPatch)
  | delete (name : String)
  | reset
  | change (name : String) (change : PolicyChange)

/-- Who called `start_stored`, and what is left to do then. -/
inductive Caller where
  | setEnabled (name : String) (patch : Option ProxyPatch)
  | startAll (name : String) (rest : List String) (firstError : Option ControlError)
  | reset (name : String) (rest : List String) (failed : List String)
deriving DecidableEq, Repr

def Caller.name : Caller → String
  | .setEnabled name _ | .startAll name _ _ | .reset name _ _ => name

/-- A patch past its `enabled` part, with the generation that part returned. -/
structure Patching where
  patch : ProxyPatch
  generation : Option Nat
deriving DecidableEq, Repr

inductive Answer where
  | generation (generation : Nat)
  | report (generation : Nat) (failedEnables : List String)
deriving DecidableEq, Repr

/-- What a call awaits. -/
inductive Task where
  -- `set_enabled`, alone or for a patch
  | enabling (name : String) (patch : Option ProxyPatch)
  | disabling (name : String) (patch : Option ProxyPatch)
  | stopping (name : String) (done : Option Nat) (patch : Option ProxyPatch)
  -- `start_stored`, after the spec is read again in the loops
  | rereading (caller : Caller)
  | binding (listen : SocketAddr) (caller : Caller)
  | spawning (bound : SocketAddr) (caller : Caller)
  | storing (bound : SocketAddr) (supervisor : Nat) (caller : Caller)
  | abandoning (name : String) (supervisor : Nat) (error : ControlError) (caller : Option Caller)
  -- `start_all` and `reset`
  | listing
  | clearing
  -- `update_proxy`
  | viewing (name : String) (generation : Nat)
  | cloning (name : String) (patching : Patching)
  | writingBack (name : String) (patching : Patching) (spec : ProxySpec)
  | prebinding (name : String) (patching : Patching) (spec : ProxySpec)
  | releasing (name : String) (patching : Patching) (spec : ProxySpec) (bound : SocketAddr)
  | draining (name : String) (patching : Patching) (spec : ProxySpec) (bound : SocketAddr) (done : Option Nat)
  | respawning (name : String) (patching : Patching) (spec : ProxySpec) (bound : SocketAddr)
  | restoring (name : String) (patching : Patching) (spec : ProxySpec) (bound : SocketAddr) (supervisor : Nat)
  -- `create_proxy` and `import_definition`
  | checking (spec : ProxySpec)
  | createBinding (spec : ProxySpec)
  | createSpawning (spec : ProxySpec) (bound : SocketAddr)
  | inserting (spec : ProxySpec) (bound : SocketAddr) (supervisor : Nat)
  | importing (spec : ProxySpec)
  -- `delete_proxy`
  | removing (name : String)
  | removed (name : String) (done : Option Nat)
  -- the fault operations
  | changing (name : String) (change : PolicyChange)
  | returned (result : Except ControlError Answer)

structure ControlCall where
  request : ControlRequest
  task : Task

structure ControlState where
  proxies : Registry
  supervisors : List Supervisor
  /-- The number of tokens made so far, and those that are cancelled. -/
  tokens : Nat
  cancelled : List Nat
  calls : List ControlCall
  generation : Nat

namespace ControlState

def empty : ControlState := ⟨[], [], 0, [], [], 1⟩

variable (s : ControlState)

/-- `next_generation`. -/
def bump : ControlState := { s with generation := (s.generation + 1) % 2 ^ 64 }

def cancel (token : Nat) : ControlState := { s with cancelled := token :: s.cancelled }

/-- `spawn_supervisor` with a new token. -/
def spawn (name : String) : ControlState :=
  { s with supervisors := s.supervisors ++ [⟨name, s.tokens, .looking⟩], tokens := s.tokens + 1 }

/-- The completion flag is set. A flag of no supervisor never is. -/
def joined (done : Option Nat) : Bool :=
  match done with
  | none => false
  | some k => s.supervisors[k]?.any (·.phase = .finished)

/-- The token of a supervisor. -/
def tokenOf (k : Nat) : Nat := (s.supervisors[k]?.map (·.token)).getD 0

/-! ## Between two awaits -/

def ok (s : ControlState) : ControlState × Task := (s, .returned (.ok (.generation s.generation)))

def fail (e : ControlError) : ControlState × Task := (s, .returned (.error e))

/-- `update_proxy` after its `enabled` part, up to the clone. -/
def patchFields (name : String) (p : Patching) : ControlState × Task :=
  if p.patch.connectTimeoutMs = some 0 then s.fail (.invalid "connect timeout must be non-zero")
  else (s, .cloning name p)

/-- `set_enabled` returns a generation, to its caller or to `update_proxy`. -/
def enabledDone (name : String) (patch : Option ProxyPatch) : ControlState × Task :=
  match patch with
  | none => s.ok
  | some patch =>
    if patch.onlyEnabled then (s, .viewing name s.generation) else s.patchFields name ⟨patch, some s.generation⟩

/-- The next name of `start_all`. -/
def startAllNext (names : List String) (firstError : Option ControlError) : ControlState × Task :=
  match names with
  | name :: rest => (s, .rereading (.startAll name rest firstError))
  | [] =>
    match firstError with
    | some e => s.fail e
    | none => s.ok

/-- The next name of `reset`. -/
def resetNext (names failed : List String) : ControlState × Task :=
  match names with
  | name :: rest => (s, .rereading (.reset name rest failed))
  | [] => (s.bump, .returned (.ok (.report s.bump.generation failed)))

/-- `start_stored` returns to its caller. -/
def started (caller : Caller) (result : Option ControlError) : ControlState × Task :=
  match caller, result with
  | .setEnabled name patch, none => s.bump.enabledDone name patch
  | .setEnabled _ _, some e => s.fail e
  | .startAll _ rest firstError, none => s.startAllNext rest firstError
  | .startAll _ rest firstError, some e => s.startAllNext rest (firstError.or (some e))
  | .reset _ rest failed, none => s.resetNext rest failed
  | .reset name rest failed, some _ => s.resetNext rest (failed ++ [name])

/-- The generation an update returns. -/
def updated (p : Patching) : ControlState × Task :=
  match p.generation with
  | some generation => (s, .returned (.ok (.generation generation)))
  | none => s.bump.ok

/-- A supervisor that cannot be stored is stopped. -/
def abandon (name : String) (k : Nat) (e : ControlError) (caller : Option Caller) : ControlState × Task :=
  (s.cancel (s.tokenOf k), .abandoning name k e caller)

/-! ## The write sections -/

end ControlState

namespace ManagedProxy

variable (entry : ManagedProxy)

/-- `set_enabled` finds the proxy as it is asked to be and sets nothing. -/
def askedEnabled (enabled : Bool) : ManagedProxy := { entry with asked := { entry.asked with enabled } }

/-- `set_enabled(false)`, with a new scope for the next start. -/
def disabled (token : Nat) : ManagedProxy :=
  { entry with
    running := false
    boundAddr := none
    spec := { entry.spec with enabled := false }
    cancel := token
    asked := { entry.asked with enabled := false } }

/-- The end of `start_stored`. -/
def stored (bound : SocketAddr) (token k : Nat) : ManagedProxy :=
  { entry with
    spec := { entry.spec with enabled := true }
    running := true
    boundAddr := some bound
    cancel := token
    done := some k
    asked := { entry.asked with enabled := true } }

/-- `update_proxy` writes its clone back around the live policies. -/
def written (patch : ProxyPatch) (spec : ProxySpec) : ManagedProxy :=
  { entry with
    spec := { spec with
      upstreamPolicy := entry.spec.upstreamPolicy
      downstreamPolicy := entry.spec.downstreamPolicy }
    asked := entry.asked.setPatch patch }

/-- A restart gives up the old listener. -/
def released (token : Nat) : ManagedProxy := { entry with running := false, boundAddr := none, cancel := token }

/-- A restart stores the clone and the new supervisor. -/
def restarted (patch : ProxyPatch) (spec : ProxySpec) (bound : SocketAddr) (token k : Nat) : ManagedProxy :=
  { entry.written patch spec with
    running := true
    boundAddr := some bound
    cancel := token
    done := some k }

/-- `reset`: enabled, with empty plans. -/
def cleared : ManagedProxy :=
  let spec := { entry.spec with enabled := true }
  let up := spec.clearDirection .upstream
  let down := up.2.clearDirection .downstream
  { entry with
    spec := down.2
    asked := ({ entry.asked with enabled := true }.setPlans up.1).setPlans down.1 }

/-- A fault operation. -/
def changed (change : PolicyChange) : ManagedProxy :=
  match change.apply entry.spec with
  | (.error _, spec) => { entry with spec }
  | (.ok plans, spec) => { entry with spec, asked := entry.asked.setPlans plans }

end ManagedProxy

namespace ControlState

variable (s : ControlState)

def askEnabled (name : String) (enabled : Bool) : ControlState :=
  { s with proxies := s.proxies.modify name (·.askedEnabled enabled) }

/-- `set_enabled(false)`: the old scope is cancelled. -/
def disable (name : String) (entry : ManagedProxy) : ControlState :=
  { s with
    proxies := s.proxies.modify name (·.disabled s.tokens)
    tokens := s.tokens + 1
    cancelled := entry.cancel :: s.cancelled }

def store (name : String) (bound : SocketAddr) (k : Nat) : ControlState :=
  { s with proxies := s.proxies.modify name (·.stored bound (s.tokenOf k) k) }

def writeBack (name : String) (patch : ProxyPatch) (spec : ProxySpec) : ControlState :=
  { s with proxies := s.proxies.modify name (·.written patch spec) }

def release (name : String) (entry : ManagedProxy) : ControlState :=
  { s with
    proxies := s.proxies.modify name (·.released s.tokens)
    tokens := s.tokens + 1
    cancelled := entry.cancel :: s.cancelled }

def restore (name : String) (patch : ProxyPatch) (spec : ProxySpec) (bound : SocketAddr) (k : Nat) : ControlState :=
  { s with proxies := s.proxies.modify name (·.restarted patch spec bound (s.tokenOf k) k) }

/-- `create_proxy` registers its proxy. -/
def insertRunning (spec : ProxySpec) (bound : SocketAddr) (k : Nat) : ControlState :=
  let entry : ManagedProxy := {
    spec
    running := true
    boundAddr := some bound
    cancel := s.tokenOf k
    done := some k
    asked := spec.fields }
  { s with proxies := s.proxies.insert spec.name entry }

/-- `import_definition` registers a proxy that is not started. -/
def insertStopped (spec : ProxySpec) : ControlState :=
  let entry : ManagedProxy := {
    spec
    running := false
    boundAddr := none
    cancel := s.tokens
    done := none
    asked := spec.fields }
  { s with proxies := s.proxies.insert spec.name entry, tokens := s.tokens + 1 }

def clear : ControlState := { s with proxies := s.proxies.map fun p => (p.1, p.2.cleared) }

def applyChange (name : String) (change : PolicyChange) : ControlState :=
  { s with proxies := s.proxies.modify name (·.changed change) }

/-- `delete_proxy`: the definition goes and its scope is cancelled. -/
def delete (name : String) (entry : ManagedProxy) : ControlState :=
  { s with proxies := s.proxies.remove name, cancelled := entry.cancel :: s.cancelled }

end ControlState

/-- The checks a fault operation makes before it takes the lock. -/
def PolicyChange.precheck : PolicyChange → Except ControlError Unit
  | .addFault upsert => (fun _ => ()) <$> upsert.build
  | .updateFault _ patch =>
    match patch.probability with
    | none => .ok ()
    | some value => (fun _ => ()) <$> checkProbability value
  | .publishPlans upstream downstream =>
    match upstream.validate, downstream.validate with
    | .error e, _ => .error (.invalid e.message)
    | .ok (), .error e => .error (.invalid e.message)
    | .ok (), .ok () => .ok ()
  | .removeFault _ | .publishDirectionExpected _ _ _ _ => .ok ()

namespace ControlState

variable (seed : UInt64) (s : ControlState)

/-! ## Steps -/

/-- A call up to its first await. -/
def start (request : ControlRequest) : ControlState × Task :=
  match request with
  | .create spec =>
    match spec.validate with
    | .error e => s.fail e
    | .ok () => (s, .checking spec)
  | .importDefinition spec =>
    match spec.validate with
    | .error e => s.fail e
    | .ok () => (s, .importing (spec.initPolicies seed))
  | .startAll => (s, .listing)
  | .setEnabled name true => (s, .enabling name none)
  | .setEnabled name false => (s, .disabling name none)
  | .update name patch =>
    match patch.enabled with
    | some true => (s, .enabling name (some patch))
    | some false => (s, .disabling name (some patch))
    | none => s.patchFields name ⟨patch, none⟩
  | .delete name => (s, .removing name)
  | .reset => (s, .clearing)
  | .change name change =>
    match change.precheck with
    | .error e => s.fail e
    | .ok () => (s, .changing name change)

/-- The names that match, in the order of the registry's keys. -/
def names (p : ManagedProxy → Bool) : List String :=
  ((s.proxies.filter fun e => p e.2).map (·.1)).insertionSort fun name name' => Registry.keyLe name name' = true

/-- What the awaited step brings: a bind succeeds with an address or fails. -/
def proceed (task : Task) (bind : Except String SocketAddr) : ControlState × Task :=
  match task with
  | .enabling name patch =>
    match s.proxies.get name with
    | none => s.fail (.notFound name)
    | some entry =>
      if entry.running then (s.askEnabled name true).enabledDone name patch
      else (s, .binding entry.spec.listen (.setEnabled name patch))
  | .disabling name patch =>
    match s.proxies.get name with
    | none => s.fail (.notFound name)
    | some entry =>
      if !entry.running then (s.askEnabled name false).enabledDone name patch
      else (s.disable name entry, .stopping name entry.done patch)
  | .stopping name done patch =>
    if s.joined done then s.bump.enabledDone name patch else (s, task)
  | .rereading caller =>
    match s.proxies.get caller.name, caller with
    | some entry, caller => (s, .binding entry.spec.listen caller)
    | none, .startAll name rest firstError => s.startAllNext rest (firstError.or (some (.notFound name)))
    | none, .reset _ rest failed => s.resetNext rest failed
    | none, .setEnabled name _ => s.fail (.notFound name)
  | .binding _ caller =>
    match bind with
    | .error reason => s.started caller (some (.bindFailed caller.name reason))
    | .ok bound => (s, .spawning bound caller)
  | .spawning bound caller => (s.spawn caller.name, .storing bound s.supervisors.length caller)
  | .storing bound k caller =>
    match s.proxies.get caller.name with
    | none => s.abandon caller.name k (.notFound caller.name) (some caller)
    | some _ => (s.store caller.name bound k).started caller none
  | .abandoning _ k e caller =>
    if s.joined (some k) then
      match caller with
      | some caller => s.started caller (some e)
      | none => s.fail e
    else (s, task)
  | .listing => s.startAllNext (s.names fun entry => entry.spec.enabled && !entry.running) none
  | .clearing => s.clear.resetNext (s.names fun entry => !entry.running) []
  | .viewing name generation =>
    match s.proxies.get name with
    | none => s.fail (.notFound name)
    | some _ => (s, .returned (.ok (.generation generation)))
  | .cloning name p =>
    match s.proxies.get name with
    | none => s.fail (.notFound name)
    | some entry =>
      match (p.patch.apply entry.spec).validate with
      | .error e => s.fail e
      | .ok () =>
        if !p.patch.restarts entry.spec || !entry.running then (s, .writingBack name p (p.patch.apply entry.spec))
        else (s, .prebinding name p (p.patch.apply entry.spec))
  | .writingBack name p spec =>
    match s.proxies.get name with
    | none => s.fail (.notFound name)
    | some _ => (s.writeBack name p.patch spec).updated p
  | .prebinding name p spec =>
    match bind with
    | .error reason =>
      s.fail (.restartFailed name s!"replacement bind failed ({reason}); old listener still serving")
    | .ok bound => (s, .releasing name p spec bound)
  | .releasing name p spec bound =>
    match s.proxies.get name with
    | none => s.fail (.notFound name)
    | some entry =>
      if !entry.running then s.fail (.conflict s!"proxy {name} is already being restarted")
      else (s.release name entry, .draining name p spec bound entry.done)
  | .draining name p spec bound done =>
    if s.joined done then (s, .respawning name p spec bound) else (s, task)
  | .respawning name p spec bound => (s.spawn name, .restoring name p spec bound s.supervisors.length)
  | .restoring name p spec bound k =>
    match s.proxies.get name with
    | none => s.abandon name k (.notFound name) none
    | some _ => (s.restore name p.patch spec bound k).updated p
  | .checking spec =>
    if (s.proxies.get spec.name).isSome then s.fail (.conflict s!"proxy {spec.name} already exists")
    else if maxStreamProxies ≤ s.proxies.length then
      s.fail (.invalid "stream proxy count exceeds the 1024 proxy limit")
    else (s, .createBinding spec)
  | .createBinding spec =>
    match bind with
    | .error reason => s.fail (.bindFailed spec.name reason)
    | .ok bound => (s, .createSpawning { spec.initPolicies seed with enabled := true } bound)
  | .createSpawning spec bound => (s.spawn spec.name, .inserting spec bound s.supervisors.length)
  | .inserting spec bound k =>
    if (s.proxies.get spec.name).isSome then
      s.abandon spec.name k (.conflict s!"proxy {spec.name} already exists") none
    else if maxStreamProxies ≤ s.proxies.length then
      s.abandon spec.name k (.invalid "stream proxy count exceeds the 1024 proxy limit") none
    else (s.insertRunning spec bound k).bump.ok
  | .importing spec =>
    if (s.proxies.get spec.name).isSome then s.fail (.conflict s!"proxy {spec.name} already exists")
    else (s.insertStopped spec).bump.ok
  | .removing name =>
    match s.proxies.get name with
    | none => s.fail (.notFound name)
    | some entry => (s.delete name entry, .removed name entry.done)
  | .removed _ done => if s.joined done then s.bump.ok else (s, task)
  | .changing name change =>
    match s.proxies.get name with
    | none => s.fail (.notFound name)
    | some entry =>
      match (change.apply entry.spec).1 with
      | .error e => (s.applyChange name change).fail e
      | .ok _ => (s.applyChange name change).bump.ok
  | .returned _ => (s, task)

/-- One turn of a supervisor. -/
inductive Turn where
  /-- It reads its entry. -/
  | look
  /-- It finds its scope cancelled while it waits for a connection. -/
  | observe
  /-- It accepts a connection, or the accept fails, and goes round. -/
  | accepted
  /-- Its children are shut down and its records purged. -/
  | finish
deriving DecidableEq, Repr

def Supervisor.turn (v : Supervisor) (present cancelled : Bool) : Turn → Supervisor
  | .look =>
    if v.phase = .looking then { v with phase := if !present || cancelled then .closing else .accepting } else v
  | .observe => if v.phase = .accepting && cancelled then { v with phase := .closing } else v
  | .accepted => if v.phase = .accepting then { v with phase := .looking } else v
  | .finish => if v.phase = .closing then { v with phase := .finished } else v

inductive Op where
  /-- A call is made. -/
  | begin (request : ControlRequest)
  /-- What call `i` awaits is there. -/
  | advance (i : Nat) (bind : Except String SocketAddr)
  | supervisor (k : Nat) (turn : Turn)

def step : Op → ControlState
  | .begin request =>
    let (s, task) := s.start seed request
    { s with calls := s.calls ++ [⟨request, task⟩] }
  | .advance i bind =>
    match s.calls[i]? with
    | none => s
    | some call =>
      let (s, task) := s.proceed seed call.task bind
      { s with calls := s.calls.set i { call with task } }
  | .supervisor k turn =>
    match s.supervisors[k]? with
    | none => s
    | some v =>
      let next := Supervisor.turn v (s.proxies.get v.name).isSome (v.token ∈ s.cancelled) turn
      { s with supervisors := s.supervisors.set k next }

end ControlState

end Eggchaos
