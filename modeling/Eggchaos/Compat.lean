import Eggchaos.FailedUpdates
import Eggchaos.Toxics
/-!
# The proxies of the compatibility adapter

`ToxiproxyAdapter::update` and `populate` of `eggchaos-toxiproxy`. Each makes a
sequence of native calls and reads the rest of its request between them. A call
is alone here: it goes on, or a supervisor does.

`parse` is `FromStr` of a socket address.
-/

namespace Eggchaos
open Lib

/-! ## Shapes -/

/-- An entry of `populate`. Its toxics are ignored. -/
structure ProxyInput where
  name : Option String
  listen : Option String
  upstream : Option String
  enabled : Option Bool
deriving DecidableEq, Repr

structure ProxyUpdate where
  listen : Option String
  upstream : Option String
  enabled : Option Bool
deriving DecidableEq, Repr

/-- The JSON object of a proxy in an answer, with its addresses unprinted. -/
structure ProxyObject where
  name : String
  listen : SocketAddr
  upstream : SocketAddr
  enabled : Bool
  toxics : List ToxicObject
deriving DecidableEq, Repr

/-- `proxy_json` of what is stored. -/
def proxyJson (entry : ManagedProxy) (profile : CompatProfile) : Except CompatError ProxyObject := do
  let upstream ← entry.spec.upstreamPolicy.snapshot.plan.faults.mapM (faultToToxic .upstream · profile)
  let downstream ← entry.spec.downstreamPolicy.snapshot.plan.faults.mapM (faultToToxic .downstream · profile)
  return ⟨entry.spec.name, entry.boundAddr.getD entry.spec.listen, entry.spec.upstream, entry.spec.enabled,
    upstream ++ downstream⟩

def nativeDefaultProxyTimeoutMs : Nat := 5000

/-- `ProxySpec::new`. -/
def ProxySpec.new (name : String) (listen upstream : SocketAddr) : ProxySpec where
  name := name
  listen := listen
  upstream := upstream
  upstreamFaults := .empty
  downstreamFaults := .empty
  upstreamPolicy := ProxySpec.policyOf .empty 0
  downstreamPolicy := ProxySpec.policyOf .empty 0
  enabled := true
  maxConnections := none
  connectTimeout := nativeDefaultProxyTimeoutMs * 1000000
  seed := 0

/-- An ephemeral port of the loopback interface. -/
def loopbackEphemeral : SocketAddr := ⟨.v4 127 0 0 1, 0⟩

/-- `map_update_error`. -/
def mapUpdateError : ControlError → CompatError
  | .notFound _ => .proxyNotFound
  | .restartFailed _ reason | .bindFailed _ reason => ⟨500, reason⟩
  | .invalid message => ⟨400, message⟩
  | .conflict message => ⟨409, message⟩

section
variable (parse : String → Except String SocketAddr)

/-- `str::parse` with its error as the adapter reports it. -/
def parseAddr (text : String) : Except CompatError SocketAddr := (parse text).mapError fun e => ⟨400, e⟩

/-- A name that is not empty. -/
def ProxyInput.given (input : ProxyInput) : Option String := input.name.filter (· ≠ "")

/-- `resolve_addrs`. -/
def ProxyInput.resolveAddrs (input : ProxyInput) : Except CompatError (String × SocketAddr × SocketAddr) :=
  match input.given with
  | none => .error ⟨400, "missing required field: name"⟩
  | some name =>
    match input.upstream.filter (· ≠ "") with
    | none => .error ⟨400, "missing required field: upstream"⟩
    | some upstream => do
      let upstream ← parseAddr parse upstream
      let listen ← match input.listen.filter (· ≠ "") with
        | some listen => parseAddr parse listen
        | none => .ok loopbackEphemeral
      return (name, listen, upstream)

/-- The native patch of an update, past its `enabled`. -/
def ProxyUpdate.addresses (patch : ProxyUpdate) : Except CompatError ProxyPatch := do
  let listen ← patch.listen.mapM (parseAddr parse)
  let upstream ← patch.upstream.mapM (parseAddr parse)
  return { listen, upstream, enabled := none, maxConnections := none, connectTimeoutMs := none }

end

/-! ## `update` -/

/-- What `update` awaits. -/
inductive ProxyUpdateTask where
  | viewing (patch : ProxyUpdate)
  /-- In `set_enabled`. -/
  | enabling (patch : ProxyUpdate) (task : Task)
  /-- In `update_proxy`. -/
  | patching (task : Task)
  | rendering
  | done (result : Except CompatError ProxyObject)

section
variable (seed : UInt64) (parse : String → Except String SocketAddr) (profile : CompatProfile) (env : UpdateEnv)
  (name : String) (s : ControlState)

/-- `update` past its `enabled` part. -/
def ProxyUpdate.readAddresses (patch : ProxyUpdate) : ControlState × ProxyUpdateTask :=
  if patch.listen.isSome || patch.upstream.isSome then
    match patch.addresses parse with
    | .error e => (s, .done (.error e))
    | .ok native =>
      let out := s.start seed (.update name native)
      (out.1, .patching out.2)
  else (s, .rendering)

/-- One await of `update`. -/
def ProxyUpdateTask.proceed (task : ProxyUpdateTask) : ControlState × ProxyUpdateTask :=
  match task with
  | viewing patch =>
    match s.proxies.get name with
    | none => (s, done (.error .proxyNotFound))
    | some _ =>
      match patch.enabled with
      | none => patch.readAddresses seed parse name s
      | some enabled =>
        let out := s.start seed (.setEnabled name enabled)
        (out.1, enabling patch out.2)
  | enabling patch native =>
    match native with
    | .returned (.error e) => (s, done (.error (mapUpdateError e)))
    | .returned (.ok _) => patch.readAddresses seed parse name s
    | native =>
      let out := advanceAlone seed env s native
      (out.1, enabling patch out.2)
  | patching native =>
    match native with
    | .returned (.error e) => (s, done (.error (mapUpdateError e)))
    | .returned (.ok _) => (s, rendering)
    | native =>
      let out := advanceAlone seed env s native
      (out.1, patching out.2)
  | rendering =>
    match s.proxies.get name with
    | none => (s, done (.error .proxyNotFound))
    | some entry => (s, done (proxyJson entry profile))
  | done result => (s, done result)

def ProxyUpdateTask.step (x : ControlState × ProxyUpdateTask) : AloneOp → ControlState × ProxyUpdateTask
  | .advance => x.2.proceed seed parse profile env name x.1
  | .supervisor k turn => (x.1.step seed (.supervisor k turn), x.2)

/-- `update` with nothing beside it. -/
def updateProxyAlone (patch : ProxyUpdate) (ops : List AloneOp) : ControlState × ProxyUpdateTask :=
  run (ProxyUpdateTask.step seed parse profile env name) (s, .viewing patch) ops

end

/-! ## `populate` -/

/-- What `populate` meets: the shutdown flag, and how the bind of each entry ends. -/
structure PopulateEnv where
  down : Bool
  binds : Nat → Except String SocketAddr

/-- What the native calls of entry `index` meet. -/
def PopulateEnv.native (env : PopulateEnv) (index : Nat) : UpdateEnv := ⟨env.down, env.binds index, env.binds index⟩

/-- What `populate` awaits: the entry it is at, those that follow, and what it has
rendered. -/
inductive PopulateTask where
  /-- At the head of the loop. -/
  | entry (index : Nat) (rest : List ProxyInput) (rendered : List ProxyObject)
  /-- In `delete_proxy`, before the proxy is created anew. -/
  | deleting (spec : ProxySpec) (index : Nat) (rest : List ProxyInput) (rendered : List ProxyObject) (task : Task)
  /-- In `create_proxy` or `import_definition`. -/
  | creating (name : String) (index : Nat) (rest : List ProxyInput) (rendered : List ProxyObject) (task : Task)
  | rendering (name : String) (index : Nat) (rest : List ProxyInput) (rendered : List ProxyObject)
  | done (result : Except CompatError (List ProxyObject))

section
variable (seed : UInt64) (parse : String → Except String SocketAddr) (profile : CompatProfile) (env : PopulateEnv)
  (s : ControlState)

/-- The native call that makes a proxy of an entry. -/
def PopulateEnv.create (spec : ProxySpec) : ControlState × Task :=
  if spec.enabled then
    if env.down then s.fail serviceShuttingDown else s.start seed (.create spec)
  else s.start seed (.importDefinition spec)

/-- What an answer shows of a proxy; one that cannot be shown is left out. -/
def shownProxy (profile : CompatProfile) (entry : Option ManagedProxy) : List ProxyObject :=
  (entry.bind fun entry => (proxyJson entry profile).toOption).toList

/-- One await of `populate`. An entry that cannot be read or bound is skipped. -/
def PopulateTask.proceed (task : PopulateTask) : ControlState × PopulateTask :=
  match task with
  | entry _ [] rendered => (s, done (.ok rendered))
  | entry index (input :: rest) rendered =>
    if input.given.isNone then (s, done (.error ⟨400, s!"missing required field: name at proxy {index + 1}"⟩))
    else
      match input.resolveAddrs parse with
      | .error _ => (s, entry (index + 1) rest rendered)
      | .ok (name, listen, upstream) =>
        let spec := { ProxySpec.new name listen upstream with enabled := input.enabled.getD true }
        match s.proxies.get name with
        | some found =>
          if found.spec.listen = listen ∧ found.spec.upstream = upstream then
            (s, entry (index + 1) rest (rendered ++ shownProxy profile (some found)))
          else
            let out := s.start seed (.delete name)
            (out.1, deleting spec index rest rendered out.2)
        | none =>
          let out := env.create seed s spec
          (out.1, creating name index rest rendered out.2)
  | deleting spec index rest rendered native =>
    match native with
    | .returned _ =>
      let out := env.create seed s spec
      (out.1, creating spec.name index rest rendered out.2)
    | native =>
      let out := advanceAlone seed (env.native index) s native
      (out.1, deleting spec index rest rendered out.2)
  | creating name index rest rendered native =>
    match native with
    | .returned (.ok _) => (s, rendering name index rest rendered)
    | .returned (.error _) => (s, entry (index + 1) rest rendered)
    | native =>
      let out := advanceAlone seed (env.native index) s native
      (out.1, creating name index rest rendered out.2)
  | rendering name index rest rendered => (s, entry (index + 1) rest (rendered ++ shownProxy profile (s.proxies.get name)))
  | done result => (s, done result)

def PopulateTask.step (x : ControlState × PopulateTask) : AloneOp → ControlState × PopulateTask
  | .advance => x.2.proceed seed parse profile env x.1
  | .supervisor k turn => (x.1.step seed (.supervisor k turn), x.2)

/-- `populate` with nothing beside it. -/
def populateAlone (inputs : List ProxyInput) (ops : List AloneOp) : ControlState × PopulateTask :=
  run (PopulateTask.step seed parse profile env) (s, .entry 0 inputs []) ops

end

end Eggchaos
