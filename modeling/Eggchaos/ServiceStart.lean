import Eggchaos.Admin
import Eggchaos.Configuration
import Eggchaos.ControlLemmas
/-!
# The start of a service

`EggchaosService::start`: it registers the definitions of a service one by one,
through the calls of the control plane, and no one else has the runtime yet but
the acceptors that it spawns. These take their turns in between.

What `start` returns depends on the binds alone (`start_outcome`). A datagram proxy
that cannot be created stops all that was started. A listener that cannot be bound
stops nothing: the acceptors of the definitions before it go on, and the runtime
that could stop them is not returned.
-/

namespace Eggchaos
open Lib

/-! ## Datagram proxies -/

/-- `DatagramRuntimeError` as far as `create_proxy` returns it to a single caller. -/
inductive DatagramRuntimeError where
  | invalid (message : String)
  | duplicate (name : String)
  | bind (reason : String)
deriving DecidableEq, Repr

/-- `map_datagram_error`. -/
def mapDatagramError : DatagramRuntimeError → ControlError
  | .invalid message => .invalid message
  | .duplicate name => .conflict s!"datagram proxy {name} already exists"
  | .bind reason => .bindFailed "datagram" reason

/-- The datagram proxies by name, with the addresses of their listeners. -/
abbrev DatagramRegistry := List (String × SocketAddr)

namespace DatagramRegistry

variable (limits : DatagramRuntimeLimits) (proxies : DatagramRegistry) (spec : DatagramProxySpec)
  (bind : Except String SocketAddr)

/-- There is room for a proxy of this name. -/
def checkRoom : Except DatagramRuntimeError Unit :=
  if proxies.any (·.1 = spec.name) then .error (.duplicate spec.name)
  else if limits.maxProxies ≤ proxies.length then .error (.invalid "proxy definition limit reached")
  else .ok ()

/-- `DatagramRuntime::create_proxy`. The definition stays until its listener is stored. -/
def create : Except DatagramRuntimeError DatagramRegistry := do
  (spec.validate limits.maxAssociations).mapError .invalid
  checkRoom limits proxies spec
  let bound ← bind.mapError .bind
  checkRoom limits proxies spec
  return proxies ++ [(spec.name, bound)]

end DatagramRegistry

/-! ## The machine -/

/-- The awaits that are left of a call of `start`. -/
def Task.startSteps : Task → Nat
  | .checking _ => 4
  | .createBinding _ => 3
  | .createSpawning _ _ => 2
  | .inserting _ _ _ | .importing _ => 1
  | _ => 0

/-- How the bind of each definition ends. `start` binds each of them once. -/
structure Binds where
  tcp : String → Except String SocketAddr
  udp : String → Except String SocketAddr

inductive ServicePhase where
  /-- At the head of the loop over the stream proxies. -/
  | streams (rest : List ProxySpec)
  /-- In the call for a definition. -/
  | calling (spec : ProxySpec) (task : Task) (rest : List ProxySpec)
  | datagrams (rest : List DatagramProxySpec)
  /-- In `shutdown_and_join`. -/
  | stopping (error : ControlError)
  | returned (result : Except EggchaosError Unit)

/-- The loop goes on with what a call awaits, or with what it returns. -/
def ServicePhase.after (spec : ProxySpec) (rest : List ProxySpec) : Task → ServicePhase
  | .returned (.ok _) => .streams rest
  | .returned (.error e) => .returned (.error (.control e))
  | task => .calling spec task rest

/-- `initiate_shutdown`: the tokens made so far are children of the one it cancels. -/
def ControlState.cancelAll (s : ControlState) : ControlState :=
  { s with cancelled := List.range s.tokens ++ s.cancelled }

structure ServiceStart where
  control : ControlState
  datagrams : DatagramRegistry
  phase : ServicePhase

inductive StartOp where
  /-- What `start` awaits is there. -/
  | advance
  | supervisor (k : Nat) (turn : ControlState.Turn)
deriving DecidableEq

/-- The call that `start` makes for a definition. -/
def ProxySpec.startRequest (spec : ProxySpec) : ControlRequest :=
  if spec.enabled then .create spec else .importDefinition spec

namespace ServiceStart

variable (service : EggchaosService) (binds : Binds) (s : ServiceStart)

def initial : ServiceStart := ⟨.empty, [], .streams service.proxies⟩

def advance : ServiceStart :=
  match s.phase with
  | .streams [] => { s with phase := .datagrams service.datagramProxies }
  | .streams (spec :: rest) =>
    let (control, task) := s.control.start service.params.seed spec.startRequest
    { s with control, phase := .after spec rest task }
  | .calling spec task rest =>
    let (control, task) := s.control.proceed service.params.seed task (binds.tcp spec.name)
    { s with control, phase := .after spec rest task }
  | .datagrams [] => { s with phase := .returned (.ok ()) }
  | .datagrams (spec :: rest) =>
    match s.datagrams.create service.params.datagramLimits spec (binds.udp spec.name) with
    | .ok datagrams => { s with control := s.control.bump, datagrams, phase := .datagrams rest }
    | .error e => { s with control := s.control.cancelAll, phase := .stopping (mapDatagramError e) }
  | .stopping e =>
    if s.control.supervisors.all (·.phase = .finished) then
      { s with datagrams := [], phase := .returned (.error (.io "starting configured UDP proxy" e.message)) }
    else s
  | .returned _ => s

def step : StartOp → ServiceStart
  | .advance => s.advance service binds
  | .supervisor k turn => { s with control := s.control.step service.params.seed (.supervisor k turn) }

end ServiceStart

/-! ## What has been started -/

section
variable (seed : UInt64) (binds : Binds)

/-- An entry of the registry, of its definition. -/
structure StartedEntry (supervisors : List Supervisor) (p : String × ManagedProxy) (spec : ProxySpec) : Prop where
  name : p.1 = spec.name
  definition : p.2.spec = spec.initPolicies seed
  running : p.2.running = spec.enabled
  unbound : spec.enabled = false → p.2.boundAddr = none ∧ p.2.done = none
  bound : spec.enabled = true → ∃ addr, binds.tcp spec.name = .ok addr ∧ p.2.boundAddr = some addr
  acceptor : spec.enabled = true → ∃ k v, p.2.done = some k ∧ supervisors[k]? = some v ∧ v.name = spec.name ∧
    v.token = p.2.cancel

/-- The definitions are registered in order, and there are acceptors of these names. -/
structure Kept (specs : List ProxySpec) (acceptors : List String) (s : ControlState) : Prop where
  entries : List.Forall₂ (StartedEntry seed binds s.supervisors) s.proxies specs
  acceptors : s.supervisors.map (·.name) = acceptors
  tokens : ∀ v ∈ s.supervisors, v.token < s.tokens
  cancelled : s.cancelled = []

/-- The names of the definitions that are to accept. -/
def acceptorNames (specs : List ProxySpec) : List String := (specs.filter (·.enabled)).map (·.name)

/-- The definitions are registered, each enabled one with an acceptor. -/
def Started (specs : List ProxySpec) (s : ControlState) : Prop := Kept seed binds specs (acceptorNames specs) s

/-- The definitions before `spec` are registered, and what its call awaits. -/
inductive Starting (specs : List ProxySpec) (spec : ProxySpec) (s : ControlState) : Task → Prop
  | checking (henabled : spec.enabled = true) (h : Started seed binds specs s) : Starting specs spec s (.checking spec)
  | binding (henabled : spec.enabled = true) (h : Started seed binds specs s) : Starting specs spec s (.createBinding spec)
  | spawning {bound} (henabled : spec.enabled = true) (h : Started seed binds specs s)
      (hbound : binds.tcp spec.name = .ok bound) : Starting specs spec s (.createSpawning (spec.initPolicies seed) bound)
  | inserting {bound} (henabled : spec.enabled = true)
      (h : Kept seed binds specs (acceptorNames specs ++ [spec.name]) s) (hbound : binds.tcp spec.name = .ok bound) :
      Starting specs spec s (.inserting (spec.initPolicies seed) bound (acceptorNames specs).length)
  | importing (hdisabled : spec.enabled = false) (h : Started seed binds specs s) :
      Starting specs spec s (.importing (spec.initPolicies seed))

end

section
variable {seed : UInt64} {binds : Binds} {s : ControlState} {specs : List ProxySpec} {acceptors : List String}

theorem StartedEntry.mono {vs vs' : List Supervisor} {p : String × ManagedProxy} {spec : ProxySpec}
    (h : StartedEntry seed binds vs p spec)
    (hsame : ∀ (k : Nat) (v : Supervisor), vs[k]? = some v → ∃ v' : Supervisor, vs'[k]? = some v' ∧ v'.name = v.name ∧
      v'.token = v.token) : StartedEntry seed binds vs' p spec where
  name := h.name
  definition := h.definition
  running := h.running
  unbound := h.unbound
  bound := h.bound
  acceptor henabled := by
    obtain ⟨k, v, hdone, hv, hname, htoken⟩ := h.acceptor henabled
    obtain ⟨v', hv', hname', htoken'⟩ := hsame k v hv
    exact ⟨k, v', hdone, hv', hname'.trans hname, htoken'.trans htoken⟩

/-- The same state but for where the acceptors are, and the generation. -/
structure SameRegistered (s s' : ControlState) : Prop where
  proxies : s'.proxies = s.proxies
  acceptors : (s'.supervisors.map fun v => (v.name, v.token)) = s.supervisors.map fun v => (v.name, v.token)
  tokens : s'.tokens = s.tokens
  cancelled : s'.cancelled = s.cancelled

theorem SameRegistered.mem {s' : ControlState} (h : SameRegistered s s') {v : Supervisor} (hv : v ∈ s'.supervisors) :
    ∃ w ∈ s.supervisors, w.token = v.token := by
  have hmem : (v.name, v.token) ∈ s.supervisors.map fun v => (v.name, v.token) := h.acceptors ▸ List.mem_map_of_mem hv
  obtain ⟨w, hw, heq⟩ := List.mem_map.1 hmem
  exact ⟨w, hw, (Prod.mk.inj heq).2⟩

namespace Kept

theorem names (h : Kept seed binds specs acceptors s) : s.proxies.map (·.1) = specs.map (·.name) :=
  (map_key_of_forall₂ h.entries fun _ _ h => h.name.symm).symm

theorem length (h : Kept seed binds specs acceptors s) : s.proxies.length = specs.length := h.entries.length_eq

/-- What is enabled has been bound. -/
theorem bound (h : Kept seed binds specs acceptors s) :
    ∀ spec ∈ specs, spec.enabled = true → ∃ addr, binds.tcp spec.name = .ok addr := by
  intro spec hspec henabled
  obtain ⟨p, -, hp⟩ := exists_of_forall₂ h.entries spec hspec
  obtain ⟨addr, hbind, -⟩ := hp.bound henabled
  exact ⟨addr, hbind⟩

/-- A definition with another name is not registered yet. -/
theorem get_none (h : Kept seed binds specs acceptors s) {name : String} (hname : name ∉ specs.map (·.name)) :
    s.proxies.get name = none := by
  cases hget : s.proxies.get name with
  | none => rfl
  | some entry =>
    refine absurd ?_ hname
    rw [← h.names]
    exact List.mem_map_of_mem (Registry.mem_of_get hget)

/-- What is registered does not depend on where the acceptors are, nor on the
generation. -/
theorem congr {s' : ControlState} (h : Kept seed binds specs acceptors s) (hsame : SameRegistered s s') :
    Kept seed binds specs acceptors s' where
  entries := by
    rw [hsame.proxies]
    refine h.entries.imp fun p spec hp => hp.mono fun k v hv => ?_
    have hk := congrArg (·[k]?) hsame.acceptors
    simp only [List.getElem?_map, hv, Option.map_some] at hk
    obtain ⟨v', hv', heq⟩ := Option.map_eq_some_iff.1 hk
    obtain ⟨hname, htoken⟩ := Prod.mk.inj heq
    exact ⟨v', hv', hname, htoken⟩
  acceptors := by
    have hnames := congrArg (List.map Prod.fst) hsame.acceptors
    simp only [List.map_map] at hnames
    exact hnames.trans h.acceptors
  tokens := by
    intro v hv
    obtain ⟨w, hw, htoken⟩ := hsame.mem hv
    rw [hsame.tokens, ← htoken]
    exact h.tokens w hw
  cancelled := hsame.cancelled.trans h.cancelled

end Kept

theorem ControlState.Supervisor.turn_same (v : Supervisor) (present cancelled : Bool) (turn : ControlState.Turn) :
    (Supervisor.turn v present cancelled turn).name = v.name ∧
      (Supervisor.turn v present cancelled turn).token = v.token := by
  cases turn <;> simp only [Supervisor.turn] <;> split <;> exact ⟨rfl, rfl⟩

/-- A turn of an acceptor changes where this acceptor is, and nothing else. -/
theorem ControlState.step_supervisor (s : ControlState) (seed : UInt64) (k : Nat) (turn : ControlState.Turn) :
    SameRegistered s (s.step seed (.supervisor k turn)) ∧
      (s.step seed (.supervisor k turn)).generation = s.generation := by
  unfold ControlState.step
  dsimp only
  split
  · exact ⟨⟨rfl, rfl, rfl, rfl⟩, rfl⟩
  · next v hv =>
    refine ⟨⟨rfl, ?_, rfl, rfl⟩, rfl⟩
    obtain ⟨hname, htoken⟩ := ControlState.Supervisor.turn_same v (s.proxies.get v.name).isSome (v.token ∈ s.cancelled) turn
    refine List.ext_getElem? fun j => ?_
    rw [List.getElem?_map, List.getElem?_map, List.getElem?_set]
    split
    · next hjk =>
      subst hjk
      rw [hv]
      split
      · simp [hname, htoken]
      · next hlt => exact absurd (List.getElem?_eq_some_iff.1 hv).1 hlt
    · rfl

theorem ControlState.mem_step_supervisor {k : Nat} {turn : ControlState.Turn} {v : Supervisor}
    (hv : v ∈ (s.step seed (.supervisor k turn)).supervisors) :
    v ∈ s.supervisors ∨ ∃ w, s.supervisors[k]? = some w ∧
      v = Supervisor.turn w (s.proxies.get w.name).isSome (w.token ∈ s.cancelled) turn := by
  unfold ControlState.step at hv
  dsimp only at hv
  split at hv
  · exact .inl hv
  · next w hw => exact (List.mem_or_eq_of_mem_set hv).imp_right fun heq => ⟨w, hw, heq⟩

/-! ## The call for a definition -/

theorem acceptorNames_concat (spec : ProxySpec) :
    acceptorNames (specs ++ [spec]) = acceptorNames specs ++ if spec.enabled then [spec.name] else [] := by
  unfold acceptorNames
  rw [List.filter_append, List.map_append]
  cases hspec : spec.enabled <;> simp [hspec]

/-- An enabled definition is one that `create_proxy` leaves as it is. -/
theorem ProxySpec.initPolicies_enabled {spec : ProxySpec} (henabled : spec.enabled = true) :
    ({ spec.initPolicies seed with enabled := true } : ProxySpec) = spec.initPolicies seed := by
  rw [← henabled]
  rfl

namespace Kept

/-- The acceptor of the next definition is spawned. -/
theorem spawn (h : Kept seed binds specs acceptors s) (name : String) :
    Kept seed binds specs (acceptors ++ [name]) (s.spawn name) where
  entries := by
    refine h.entries.imp fun p spec hp => hp.mono fun k v hv => ⟨v, ?_, rfl, rfl⟩
    exact (List.getElem?_append_left (List.getElem?_eq_some_iff.1 hv).1).trans hv
  acceptors := by
    simp only [ControlState.spawn, List.map_append, h.acceptors, List.map_cons, List.map_nil]
  tokens := by
    intro v hv
    rcases List.mem_append.1 hv with hv | hv
    · exact Nat.lt_succ_of_lt (h.tokens v hv)
    · rw [List.mem_singleton.1 hv]
      exact Nat.lt_succ_self _
  cancelled := h.cancelled

/-- The next definition is registered. -/
theorem insert (h : Kept seed binds specs acceptors s) {spec : ProxySpec} {entry : ManagedProxy}
    (hentry : StartedEntry seed binds s.supervisors (spec.name, entry) spec) {tokens : Nat} (htokens : s.tokens ≤ tokens)
    (generation : Nat) :
    Kept seed binds (specs ++ [spec]) acceptors
      { s with proxies := s.proxies.insert spec.name entry, tokens, generation } where
  entries := List.rel_append (R := StartedEntry seed binds s.supervisors) h.entries (.cons hentry .nil)
  acceptors := h.acceptors
  tokens v hv := Nat.lt_of_lt_of_le (h.tokens v hv) htokens
  cancelled := h.cancelled

end Kept

variable {spec : ProxySpec} {task : Task}

/-- The call has not returned. -/
theorem Starting.after (h : Starting seed binds specs spec s task) (rest : List ProxySpec) :
    ServicePhase.after spec rest task = .calling spec task rest := by
  cases h <;> rfl

theorem Starting.startSteps_pos (h : Starting seed binds specs spec s task) : 0 < task.startSteps := by
  cases h <;> simp [Task.startSteps]

/-- The call for a definition goes on, has registered it, or could not bind it. -/
inductive CallStep (seed : UInt64) (binds : Binds) (specs : List ProxySpec) (spec : ProxySpec) (s : ControlState)
    (steps : Nat) : ControlState × Task → Prop
  | awaits {out} (h : Starting seed binds specs spec out.1 out.2) (hgeneration : out.1.generation = s.generation)
      (hsteps : out.2.startSteps < steps) : CallStep seed binds specs spec s steps out
  | registered {s' answer} (h : Started seed binds (specs ++ [spec]) s')
      (hgeneration : s'.generation = (s.generation + 1) % 2 ^ 64) (hbound : spec.enabled → ∃ addr, binds.tcp spec.name = .ok addr) :
      CallStep seed binds specs spec s steps (s', .returned (.ok answer))
  | unbound {s' reason} (h : Started seed binds specs s') (hgeneration : s'.generation = s.generation)
      (henabled : spec.enabled = true) (hbind : binds.tcp spec.name = .error reason) :
      CallStep seed binds specs spec s steps (s', .returned (.error (.bindFailed spec.name reason)))

/-- A call starts: its definition is valid. -/
theorem Started.call (h : Started seed binds specs s) (hvalid : spec.validate = .ok ()) :
    CallStep seed binds specs spec s 5 (s.start seed spec.startRequest) := by
  unfold ProxySpec.startRequest
  cases henabled : spec.enabled with
  | true =>
    simp only [ControlState.start, hvalid, if_true]
    exact .awaits (.checking henabled h) rfl (by simp [Task.startSteps])
  | false =>
    simp only [ControlState.start, hvalid, Bool.false_eq_true, if_false]
    exact .awaits (.importing henabled h) rfl (by simp [Task.startSteps])

/-- What one await of the call for a definition brings. -/
theorem Starting.proceed (h : Starting seed binds specs spec s task) (hfree : spec.name ∉ specs.map (·.name))
    (hroom : specs.length < maxStreamProxies) :
    CallStep seed binds specs spec s task.startSteps (s.proceed seed task (binds.tcp spec.name)) := by
  cases h with
  | checking henabled h =>
    have hlen := h.length
    simp only [ControlState.proceed, h.get_none hfree, Option.isSome_none, Bool.false_eq_true, if_false,
      if_neg (show ¬ maxStreamProxies ≤ s.proxies.length by omega)]
    exact .awaits (.binding henabled h) rfl (by simp [Task.startSteps])
  | binding henabled h =>
    simp only [ControlState.proceed]
    cases hbind : binds.tcp spec.name with
    | error reason => exact .unbound h rfl henabled hbind
    | ok bound =>
      rw [ProxySpec.initPolicies_enabled henabled]
      exact .awaits (.spawning henabled h hbind) rfl (by simp [Task.startSteps])
  | @spawning bound henabled h hbound =>
    simp only [ControlState.proceed]
    have hk : s.supervisors.length = (acceptorNames specs).length := by rw [← h.acceptors, List.length_map]
    rw [hk]
    exact .awaits (.inserting henabled (h.spawn spec.name) hbound) rfl (by simp [Task.startSteps])
  | @inserting bound henabled h hbound =>
    have hlen := h.length
    have hname : (spec.initPolicies seed).name = spec.name := rfl
    simp only [ControlState.proceed, hname, h.get_none hfree, Option.isSome_none, Bool.false_eq_true, if_false,
      if_neg (show ¬ maxStreamProxies ≤ s.proxies.length by omega)]
    obtain ⟨v, hv, hvname⟩ : ∃ v, s.supervisors[(acceptorNames specs).length]? = some v ∧ v.name = spec.name := by
      have hlast := congrArg (·[(acceptorNames specs).length]?) h.acceptors
      simp only [List.getElem?_map, List.getElem?_concat_length] at hlast
      exact Option.map_eq_some_iff.1 hlast
    refine .registered ?_ rfl fun _ => ⟨bound, hbound⟩
    unfold Started
    rw [acceptorNames_concat, if_pos henabled]
    refine h.insert ?_ (Nat.le_refl _) _
    exact {
      name := rfl
      definition := rfl
      running := henabled.symm
      unbound := fun hdisabled => absurd henabled (by simp [hdisabled])
      bound := fun _ => ⟨bound, hbound, rfl⟩
      acceptor := fun _ => ⟨_, v, rfl, hv, hvname, by simp [ControlState.tokenOf, hv]⟩ }
  | importing hdisabled h =>
    have hname : (spec.initPolicies seed).name = spec.name := rfl
    simp only [ControlState.proceed, hname, h.get_none hfree, Option.isSome_none, Bool.false_eq_true, if_false]
    refine .registered ?_ rfl fun henabled => absurd henabled (by simp [hdisabled])
    unfold Started
    rw [acceptorNames_concat, hdisabled, if_neg (by decide), List.append_nil]
    refine h.insert ?_ (Nat.le_succ _) _
    exact {
      name := rfl
      definition := rfl
      running := hdisabled.symm
      unbound := fun _ => ⟨rfl, rfl⟩
      bound := fun henabled => absurd henabled (by simp [hdisabled])
      acceptor := fun henabled => absurd henabled (by simp [hdisabled]) }

end

/-! ## Definitions of a service -/

/-- The definition that `start` is at has a name of its own and room, and is valid. -/
theorem EggchaosService.Valid.next {service : EggchaosService} (hvalid : service.Valid) {done rest : List ProxySpec} {spec : ProxySpec}
    (hspecs : service.proxies = done ++ spec :: rest) :
    spec.name ∉ done.map (·.name) ∧ done.length < maxStreamProxies ∧ spec.validate = .ok () := by
  have hnames := hvalid.names
  have hcount := hvalid.count
  rw [hspecs, List.map_append, List.map_cons, List.nodup_append] at hnames
  rw [hspecs, List.length_append, List.length_cons] at hcount
  refine ⟨fun hmem => hnames.2.2 _ hmem _ List.mem_cons_self rfl, ?_, hvalid.proxies spec (by simp [hspecs])⟩
  unfold maxStreamProxies
  omega

/-- How the creation of a datagram proxy ends that has a name of its own and room. -/
def EggchaosService.opens (service : EggchaosService) (binds : Binds) (spec : DatagramProxySpec) :
    Except DatagramRuntimeError SocketAddr := do
  (spec.validate service.params.datagramLimits.maxAssociations).mapError .invalid
  (binds.udp spec.name).mapError .bind

/-- A registered datagram proxy, of its definition. -/
structure Opened (service : EggchaosService) (binds : Binds) (p : String × SocketAddr) (spec : DatagramProxySpec) :
    Prop where
  name : p.1 = spec.name
  opens : service.opens binds spec = .ok p.2

theorem DatagramRegistry.create_eq {service : EggchaosService} (binds : Binds) {proxies : DatagramRegistry}
    {spec : DatagramProxySpec} (hfree : spec.name ∉ proxies.map (·.1))
    (hroom : proxies.length < service.params.datagramLimits.maxProxies) :
    proxies.create service.params.datagramLimits spec (binds.udp spec.name) =
      (service.opens binds spec).map fun bound => proxies ++ [(spec.name, bound)] := by
  have hroom' : proxies.checkRoom service.params.datagramLimits spec = .ok () := by
    rw [checkRoom, if_neg, if_neg (Nat.not_le.2 hroom)]
    rw [List.any_eq_true]
    rintro ⟨p, hp, heq⟩
    exact hfree ((of_decide_eq_true heq) ▸ List.mem_map_of_mem hp)
  simp only [create, hroom', EggchaosService.opens]
  cases (spec.validate service.params.datagramLimits.maxAssociations).mapError DatagramRuntimeError.invalid with
  | error e => rfl
  | ok _ => cases (binds.udp spec.name).mapError DatagramRuntimeError.bind <;> rfl

/-! ## The outcome -/

namespace ServiceStart

section
variable (service : EggchaosService) (binds : Binds)

/-- What `start` leaves when it returns. -/
inductive Outcome (control : ControlState) (datagrams : DatagramRegistry) : Except EggchaosError Unit → Prop
  /-- Everything is registered, what is enabled with a listener. -/
  | serving (hstreams : Started service.params.seed binds service.proxies control)
      (hdatagrams : List.Forall₂ (Opened service binds) datagrams service.datagramProxies)
      (hgeneration : control.generation = (1 + service.proxies.length + service.datagramProxies.length) % 2 ^ 64) :
      Outcome control datagrams (.ok ())
  /-- A listener cannot be bound: the definitions before it stay, and no token is cancelled. -/
  | unbound {left spec rest reason} (hspecs : service.proxies = left ++ spec :: rest) (henabled : spec.enabled = true)
      (hbind : binds.tcp spec.name = .error reason) (hleft : Started service.params.seed binds left control)
      (hdatagrams : datagrams = []) :
      Outcome control datagrams (.error (.control (.bindFailed spec.name reason)))
  /-- A datagram proxy cannot be created: all that was started has ended. -/
  | stopped {left spec rest e} (hspecs : service.datagramProxies = left ++ spec :: rest)
      (hstreams : ∀ spec ∈ service.proxies, spec.enabled = true → ∃ addr, binds.tcp spec.name = .ok addr)
      (hleft : ∀ spec ∈ left, ∃ addr, service.opens binds spec = .ok addr)
      (hopens : service.opens binds spec = .error e) (hended : ∀ v ∈ control.supervisors, v.phase = .finished)
      (hdatagrams : datagrams = []) :
      Outcome control datagrams (.error (.io "starting configured UDP proxy" (mapDatagramError e).message))

/-- What holds at each phase of `start`. -/
inductive Progress (control : ControlState) : DatagramRegistry → ServicePhase → Prop
  | streams (done) {rest} (hspecs : service.proxies = done ++ rest)
      (h : Started service.params.seed binds done control)
      (hgeneration : control.generation = (1 + done.length) % 2 ^ 64) : Progress control [] (.streams rest)
  | calling {done spec task rest} (hspecs : service.proxies = done ++ spec :: rest)
      (h : Starting service.params.seed binds done spec control task)
      (hgeneration : control.generation = (1 + done.length) % 2 ^ 64) : Progress control [] (.calling spec task rest)
  | datagrams {datagrams} (done) {rest} (hspecs : service.datagramProxies = done ++ rest)
      (hstreams : Started service.params.seed binds service.proxies control)
      (h : List.Forall₂ (Opened service binds) datagrams done)
      (hgeneration : control.generation = (1 + service.proxies.length + done.length) % 2 ^ 64) :
      Progress control datagrams (.datagrams rest)
  | stopping {datagrams left spec rest e} (hspecs : service.datagramProxies = left ++ spec :: rest)
      (hstreams : ∀ spec ∈ service.proxies, spec.enabled = true → ∃ addr, binds.tcp spec.name = .ok addr)
      (hleft : ∀ spec ∈ left, ∃ addr, service.opens binds spec = .ok addr)
      (hopens : service.opens binds spec = .error e) (hcancelled : ∀ v ∈ control.supervisors, v.token ∈ control.cancelled) :
      Progress control datagrams (.stopping (mapDatagramError e))
  | returned {datagrams result} (h : Outcome service binds control datagrams result) :
      Progress control datagrams (.returned result)

/-- What holds all along. -/
def Sound (s : ServiceStart) : Prop := Progress service binds s.control s.datagrams s.phase

end

variable {service : EggchaosService} {binds : Binds} {s : ServiceStart}

theorem initial_sound : Sound service binds (initial service) :=
  .streams [] rfl ⟨.nil, rfl, fun _ h => (List.not_mem_nil h).elim, rfl⟩ rfl

/-- What an await of a call brings, as a phase of `start`. -/
theorem Progress.of_call {done rest : List ProxySpec} {spec : ProxySpec} {control : ControlState} {steps : Nat}
    {out : ControlState × Task} (h : CallStep service.params.seed binds done spec control steps out)
    (hspecs : service.proxies = done ++ spec :: rest) (hgeneration : control.generation = (1 + done.length) % 2 ^ 64) :
    Progress service binds out.1 [] (.after spec rest out.2) := by
  cases h with
  | awaits h hsame hsteps =>
    rw [h.after rest]
    exact .calling hspecs h (hsame.trans hgeneration)
  | registered h hnext hbound =>
    refine .streams (done ++ [spec]) (by rw [hspecs, List.append_assoc]; rfl) h ?_
    rw [hnext, hgeneration, List.length_append, List.length_singleton]
    omega
  | unbound h hsame henabled hbind =>
    exact .returned (.unbound hspecs henabled hbind h rfl)

theorem Sound.advance (hvalid : service.Valid) (h : Sound service binds s) :
    Sound service binds (s.advance service binds) := by
  obtain ⟨control, datagrams, phase⟩ := s
  change Progress service binds control datagrams phase at h
  cases h with
  | @streams done rest hspecs h hgeneration =>
    cases rest with
    | nil =>
      rw [List.append_nil] at hspecs
      subst hspecs
      exact .datagrams [] rfl h .nil hgeneration
    | cons spec rest =>
      exact .of_call (h.call (hvalid.next hspecs).2.2) hspecs hgeneration
  | calling hspecs h hgeneration =>
    exact .of_call (h.proceed (hvalid.next hspecs).1 (hvalid.next hspecs).2.1) hspecs hgeneration
  | @datagrams _ done rest hspecs hstreams h hgeneration =>
    cases rest with
    | nil =>
      rw [List.append_nil] at hspecs
      subst hspecs
      exact .returned (.serving hstreams h hgeneration)
    | cons spec rest =>
      have hdone : datagrams.map (·.1) = done.map (·.name) := (map_key_of_forall₂ h fun _ _ h => h.name.symm).symm
      have hfree : spec.name ∉ datagrams.map (·.1) := by
        have hnames := hvalid.datagramNames
        rw [hspecs, List.map_append, List.map_cons, List.nodup_append] at hnames
        rw [hdone]
        exact fun hmem => hnames.2.2 _ hmem _ List.mem_cons_self rfl
      have hroom : datagrams.length < service.params.datagramLimits.maxProxies := by
        have hcount := hvalid.datagramCount
        have hlen := h.length_eq
        rw [hspecs, List.length_append, List.length_cons] at hcount
        omega
      have hcreate := DatagramRegistry.create_eq binds hfree hroom
      cases hopens : service.opens binds spec with
      | error e =>
        rw [hopens] at hcreate
        simp only [Sound, ServiceStart.advance, hcreate, Except.map]
        refine .stopping hspecs hstreams.bound ?_ hopens ?_
        · intro spec' hspec'
          obtain ⟨p, -, hp⟩ := exists_of_forall₂ h spec' hspec'
          exact ⟨_, hp.opens⟩
        · intro v hv
          exact List.mem_append_left _ (List.mem_range.2 (hstreams.tokens v hv))
      | ok bound =>
        rw [hopens] at hcreate
        simp only [Sound, ServiceStart.advance, hcreate, Except.map]
        refine .datagrams (done ++ [spec]) (by rw [hspecs, List.append_assoc]; rfl) ?_ ?_ ?_
        · exact hstreams.congr ⟨rfl, rfl, rfl, rfl⟩
        · exact List.rel_append (R := Opened service binds) h (.cons ⟨rfl, hopens⟩ .nil)
        · change (control.generation + 1) % 2 ^ 64 = _
          rw [hgeneration, List.length_append, List.length_singleton]
          omega
  | stopping hspecs hstreams hleft hopens hcancelled =>
    simp only [Sound, ServiceStart.advance]
    split
    · next hended =>
      refine .returned (.stopped hspecs hstreams hleft hopens ?_ rfl)
      intro v hv
      exact of_decide_eq_true (List.all_eq_true.1 hended v hv)
    · exact .stopping hspecs hstreams hleft hopens hcancelled
  | returned h => exact .returned h

theorem Starting.congr {seed : UInt64} {specs : List ProxySpec} {spec : ProxySpec} {control control' : ControlState}
    {task : Task} (h : Starting seed binds specs spec control task) (hsame : SameRegistered control control') :
    Starting seed binds specs spec control' task := by
  cases h with
  | checking henabled h => exact .checking henabled (h.congr hsame)
  | binding henabled h => exact .binding henabled (h.congr hsame)
  | spawning henabled h hbound => exact .spawning henabled (h.congr hsame) hbound
  | inserting henabled h hbound => exact .inserting henabled (h.congr hsame) hbound
  | importing hdisabled h => exact .importing hdisabled (h.congr hsame)

theorem Supervisor.turn_finished {v : Supervisor} (h : v.phase = .finished) (present cancelled : Bool)
    (turn : ControlState.Turn) : ControlState.Supervisor.turn v present cancelled turn = v := by
  cases turn <;> simp [ControlState.Supervisor.turn, h]

theorem Sound.supervisor (h : Sound service binds s) (k : Nat) (turn : ControlState.Turn) :
    Sound service binds (s.step service binds (.supervisor k turn)) := by
  obtain ⟨control, datagrams, phase⟩ := s
  change Progress service binds control datagrams phase at h
  change Progress service binds (control.step service.params.seed (.supervisor k turn)) datagrams phase
  obtain ⟨hsame, hgen⟩ := control.step_supervisor service.params.seed k turn
  cases h with
  | streams done hspecs h hgeneration => exact .streams done hspecs (h.congr hsame) (hgen.trans hgeneration)
  | calling hspecs h hgeneration => exact .calling hspecs (Starting.congr h hsame) (hgen.trans hgeneration)
  | datagrams done hspecs hstreams h hgeneration =>
    exact .datagrams done hspecs (hstreams.congr hsame) h (hgen.trans hgeneration)
  | stopping hspecs hstreams hleft hopens hcancelled =>
    refine .stopping hspecs hstreams hleft hopens fun v hv => ?_
    obtain ⟨w, hw, htoken⟩ := hsame.mem hv
    rw [← htoken, hsame.cancelled]
    exact hcancelled w hw
  | returned h =>
    refine .returned ?_
    cases h with
    | serving hstreams hdatagrams hgeneration =>
      exact .serving (hstreams.congr hsame) hdatagrams (hgen.trans hgeneration)
    | unbound hspecs henabled hbind hleft hdatagrams =>
      exact .unbound hspecs henabled hbind (hleft.congr hsame) hdatagrams
    | stopped hspecs hstreams hleft hopens hended hdatagrams =>
      refine .stopped hspecs hstreams hleft hopens (fun v hv => ?_) hdatagrams
      rcases ControlState.mem_step_supervisor hv with hv | ⟨w, hw, rfl⟩
      · exact hended v hv
      · have hwended := hended w (List.mem_of_getElem? hw)
        rw [Supervisor.turn_finished hwended]
        exact hwended

theorem Sound.step (hvalid : service.Valid) (h : Sound service binds s) (o : StartOp) :
    Sound service binds (s.step service binds o) := by
  cases o with
  | advance => exact h.advance hvalid
  | supervisor k turn => exact h.supervisor k turn

theorem run_sound (hvalid : service.Valid) (ops : List StartOp) :
    Sound service binds (run (step service binds) (initial service) ops) :=
  run_inv (Sound service binds) (fun _ o h => h.step hvalid o) initial_sound ops

/-- Whatever turns the acceptors take, `start` returns what the binds decide, and leaves
what it says. -/
theorem start_outcome (service : EggchaosService) (binds : Binds) (hvalid : service.Valid) (ops : List StartOp)
    (result : Except EggchaosError Unit) (h : (run (step service binds) (initial service) ops).phase = .returned result) :
    Outcome service binds (run (step service binds) (initial service) ops).control
        (run (step service binds) (initial service) ops).datagrams result ∧
      (result = .ok () ↔
        (∀ spec ∈ service.proxies, spec.enabled = true → ∃ addr, binds.tcp spec.name = .ok addr) ∧
          ∀ spec ∈ service.datagramProxies, ∃ addr, service.opens binds spec = .ok addr) := by
  have hsound : Sound service binds _ := run_sound hvalid ops
  rw [Sound, h] at hsound
  generalize (run (step service binds) (initial service) ops).control = control at hsound ⊢
  generalize (run (step service binds) (initial service) ops).datagrams = datagrams at hsound ⊢
  cases hsound with
  | returned h =>
    refine ⟨h, ?_⟩
    cases h with
    | serving hstreams hdatagrams hgeneration =>
      refine iff_of_true rfl ⟨hstreams.bound, fun spec hspec => ?_⟩
      obtain ⟨p, -, hp⟩ := exists_of_forall₂ hdatagrams spec hspec
      exact ⟨_, hp.opens⟩
    | @unbound left spec rest reason hspecs henabled hbind hleft hdatagrams =>
      refine iff_of_false (fun h => nomatch h) fun hall => ?_
      obtain ⟨addr, haddr⟩ := hall.1 spec (by simp [hspecs]) henabled
      rw [hbind] at haddr
      cases haddr
    | @stopped left spec rest e hspecs hstreams hleft hopens hended hdatagrams =>
      refine iff_of_false (fun h => nomatch h) fun hall => ?_
      obtain ⟨addr, haddr⟩ := hall.2 spec (by simp [hspecs])
      rw [hopens] at haddr
      cases haddr

/-- Two proxies, both enabled, and no datagram proxies. -/
def twoProxies : EggchaosService where
  params := ⟨7, ⟨16, 4⟩, ⟨1024, by decide, by decide⟩, 0, {}⟩
  proxies := [{ plainSpec with enabled := true }, { plainSpec with name := "q", enabled := true }]
  datagramProxies := []

theorem twoProxies_valid : twoProxies.Valid where
  count := by decide
  proxies := by
    intro proxy hproxy
    rcases List.mem_cons.1 hproxy with rfl | hproxy
    · rfl
    · rw [List.mem_singleton.1 hproxy]
      rfl
  names := by decide
  datagramNames := by decide
  connections := by decide
  buffers := by decide
  datagramLimits := by decide
  datagramCount := by decide

/-- The address of the second is taken. -/
def secondTaken : Binds where
  tcp name := if name = "p" then .ok plainSpec.listen else .error "address in use"
  udp _ := .error ""

/-- The first proxy is started and its acceptor runs; then the second is not bound. -/
theorem start_outcome_taken :
    Outcome twoProxies secondTaken
      (run (step twoProxies secondTaken) (initial twoProxies)
        (List.replicate 5 .advance ++ .supervisor 0 .look :: List.replicate 3 .advance)).control []
      (.error (.control (.bindFailed "q" "address in use"))) :=
  (start_outcome twoProxies secondTaken twoProxies_valid
    (List.replicate 5 .advance ++ .supervisor 0 .look :: List.replicate 3 .advance) _ rfl).1

end ServiceStart

end Eggchaos
