import Eggchaos.Compat
import Eggchaos.PathComponents
/-!
# Created proxies

The way of a creation request through its four forms: the wire request, the
definition it is assembled into, the entry `create_proxy` registers and the view
that is read of it. All of it arrives, for any registry and any other calls in
between, except one field: `create_proxy` enables and starts every proxy
(`created_as_requested_iff`).
-/

namespace Eggchaos
open Lib

/-! ## Requests -/

structure NativeProxyRequestV1 where
  name : String
  listen : SocketAddr
  upstream : SocketAddr
  enabled : Bool
  maxConnections : Option Nat
  connectTimeoutMs : Nat
  seed : UInt64
deriving DecidableEq, Repr

def maxTimeoutMs : Nat := 300000
def maxConnectionLimit : Nat := 1000000

/-- `NativeProxyRequestV1::validate`. -/
def NativeProxyRequestV1.validate (request : NativeProxyRequestV1) : Except String Unit := do
  validateProxyName request.name
  if request.connectTimeoutMs = 0 ∨ maxTimeoutMs < request.connectTimeoutMs then
    throw ("connect_timeout_ms must be in 1..=" ++ toString maxTimeoutMs)
  if request.maxConnections.any fun limit => limit = 0 || maxConnectionLimit < limit then
    throw ("max_connections must be in 1..=" ++ toString maxConnectionLimit)

/-- `EggchaosError` as `validate` of a definition without faults raises it, in text. -/
def invalidProxyText : ControlError → String
  | .invalid message => "invalid proxy: " ++ message
  | .notFound _ | .conflict _ | .bindFailed _ _ | .restartFailed _ _ => ""

/-- `proxy_request_into_spec`. -/
def proxyRequestIntoSpec (request : NativeProxyRequestV1) : Except String ProxySpec := do
  request.validate
  let proxy := ProxySpec.new request.name request.listen request.upstream
  let proxy := { proxy with
    enabled := request.enabled
    maxConnections := request.maxConnections
    connectTimeout := request.connectTimeoutMs * 1000000
    seed := request.seed }
  proxy.validate.mapError invalidProxyText
  return proxy

/-- The definition a request is assembled into. -/
def NativeProxyRequestV1.spec (request : NativeProxyRequestV1) : ProxySpec :=
  { ProxySpec.new request.name request.listen request.upstream with
    enabled := request.enabled
    maxConnections := request.maxConnections
    connectTimeout := request.connectTimeoutMs * 1000000
    seed := request.seed }

/-! ## Views -/

structure ProxyView where
  name : String
  listen : SocketAddr
  upstream : SocketAddr
  boundAddr : Option SocketAddr
  running : Bool
  enabled : Bool
  upstreamFaults : FaultPlan
  downstreamFaults : FaultPlan
  upstreamGeneration : Nat
  downstreamGeneration : Nat
  upstreamSeedNamespace : UInt64
  downstreamSeedNamespace : UInt64
  maxConnections : Option Nat
  connectTimeoutMs : Nat
  seed : UInt64
deriving DecidableEq, Repr

/-- `RuntimeInner::view_of`. -/
def viewOf (entry : ManagedProxy) : ProxyView :=
  let upstream := entry.spec.upstreamPolicy.snapshot
  let downstream := entry.spec.downstreamPolicy.snapshot
  { name := entry.spec.name
    listen := entry.spec.listen
    upstream := entry.spec.upstream
    boundAddr := entry.boundAddr
    running := entry.running
    enabled := entry.spec.enabled
    upstreamFaults := upstream.plan
    downstreamFaults := downstream.plan
    upstreamGeneration := upstream.generation
    downstreamGeneration := downstream.generation
    upstreamSeedNamespace := upstream.seedNamespace
    downstreamSeedNamespace := downstream.seedNamespace
    maxConnections := entry.spec.maxConnections
    connectTimeoutMs := min (entry.spec.connectTimeout / 1000000) u64Max
    seed := entry.spec.seed }

structure NativeFaultViewV1 where
  id : String
  probability : Binary64
  kind : FaultKindV1
deriving DecidableEq, Repr

structure NativeProxyViewV1 where
  name : String
  listen : SocketAddr
  upstream : SocketAddr
  boundAddr : Option SocketAddr
  running : Bool
  enabled : Bool
  upstreamFaults : List NativeFaultViewV1
  downstreamFaults : List NativeFaultViewV1
  upstreamGeneration : Nat
  downstreamGeneration : Nat
  upstreamSeedNamespace : UInt64
  downstreamSeedNamespace : UInt64
  maxConnections : Option Nat
  connectTimeoutMs : Nat
  seed : UInt64
deriving DecidableEq, Repr

/-- `NativeFaultViewV1::from`. -/
def NativeFaultViewV1.ofSpec (fault : FaultSpec) : NativeFaultViewV1 where
  id := fault.id.value
  probability := fault.probability.toBinary64
  kind := .fromCore fault.kind

/-- `NativeProxyViewV1::from`. -/
def NativeProxyViewV1.ofView (view : ProxyView) : NativeProxyViewV1 where
  name := view.name
  listen := view.listen
  upstream := view.upstream
  boundAddr := view.boundAddr
  running := view.running
  enabled := view.enabled
  upstreamFaults := view.upstreamFaults.faults.map .ofSpec
  downstreamFaults := view.downstreamFaults.faults.map .ofSpec
  upstreamGeneration := view.upstreamGeneration
  downstreamGeneration := view.downstreamGeneration
  upstreamSeedNamespace := view.upstreamSeedNamespace
  downstreamSeedNamespace := view.downstreamSeedNamespace
  maxConnections := view.maxConnections
  connectTimeoutMs := view.connectTimeoutMs
  seed := view.seed

namespace ControlState

/-- The native view of a proxy: what `create_proxy` reads in the section that
registers it, and `get` at any time. -/
def view (s : ControlState) (name : String) : Option NativeProxyViewV1 :=
  (s.proxies.get name).map fun entry => .ofView (viewOf entry)

end ControlState

/-- `apply_proxy_request` up to its first await. -/
def applyProxyRequest (serviceSeed : UInt64) (s : ControlState) (request : NativeProxyRequestV1) : ControlState × Task :=
  match proxyRequestIntoSpec request with
  | .error message => s.fail (.invalid message)
  | .ok spec => s.start serviceSeed (.create spec)

/-- A call of it among the others. -/
def ControlState.receive (serviceSeed : UInt64) (s : ControlState) (request : NativeProxyRequestV1) : ControlState :=
  let (s, task) := applyProxyRequest serviceSeed s request
  { s with calls := s.calls ++ [⟨.create request.spec, task⟩] }

/-- What a request asks the view of its proxy to be. -/
structure NativeProxyViewV1.Shows (view : NativeProxyViewV1) (serviceSeed : UInt64) (request : NativeProxyRequestV1) :
    Prop where
  name : view.name = request.name
  listen : view.listen = request.listen
  upstream : view.upstream = request.upstream
  enabled : view.enabled = request.enabled
  maxConnections : view.maxConnections = request.maxConnections
  connectTimeoutMs : view.connectTimeoutMs = request.connectTimeoutMs
  seed : view.seed = request.seed
  running : view.running = request.enabled
  faults : view.upstreamFaults = [] ∧ view.downstreamFaults = []
  generations : view.upstreamGeneration = 1 ∧ view.downstreamGeneration = 1
  namespaces : view.upstreamSeedNamespace = serviceSeed ^^^ request.seed ∧
    view.downstreamSeedNamespace = serviceSeed ^^^ request.seed

/-! ## From the request to the entry -/

theorem proxyRequestIntoSpec_ok {request : NativeProxyRequestV1} {spec : ProxySpec}
    (h : proxyRequestIntoSpec request = .ok spec) :
    spec = request.spec ∧ request.validate = .ok () ∧ request.spec.validate = .ok () := by
  unfold proxyRequestIntoSpec at h
  obtain ⟨_, hrequest, h⟩ := except_bind_ok h
  obtain ⟨_, hvalid, h⟩ := except_bind_ok h
  exact ⟨(Except.ok.inj h).symm, hrequest, except_mapError_ok hvalid⟩

theorem validate_connectTimeoutMs {request : NativeProxyRequestV1} (h : request.validate = .ok ()) :
    request.connectTimeoutMs ≤ maxTimeoutMs := by
  unfold NativeProxyRequestV1.validate at h
  obtain ⟨-, -, h⟩ := except_bind_ok h
  simp only at h
  split at h
  · cases h
  · next hbounds => exact not_lt.1 fun hlt => hbounds (Or.inr hlt)

/-- The definition `create_proxy` registers. -/
def NativeProxyRequestV1.registered (serviceSeed : UInt64) (request : NativeProxyRequestV1) : ProxySpec :=
  { request.spec.initPolicies serviceSeed with enabled := true }

/-- The entry of a created proxy shows the request if that asked for an enabled
proxy, and not otherwise. -/
theorem registered_shows_iff {serviceSeed : UInt64} {request : NativeProxyRequestV1}
    (hvalid : request.validate = .ok ()) {entry : ManagedProxy}
    (hspec : entry.spec = request.registered serviceSeed) (hrunning : entry.running = true) :
    (NativeProxyViewV1.ofView (viewOf entry)).Shows serviceSeed request ↔ request.enabled = true := by
  constructor
  · intro h
    have hshown := h.running
    exact hshown.symm.trans hrunning
  · intro henabled
    have hms : min (request.connectTimeoutMs * 1000000 / 1000000) u64Max = request.connectTimeoutMs := by
      rw [Nat.mul_div_cancel _ (by decide), Nat.min_eq_left ((validate_connectTimeoutMs hvalid).trans (by decide))]
    have hview : NativeProxyViewV1.ofView (viewOf entry) =
        .ofView (viewOf { entry with spec := request.registered serviceSeed }) := by
      rw [← hspec]
    rw [hview]
    exact {
      name := rfl
      listen := rfl
      upstream := rfl
      enabled := henabled.symm
      maxConnections := rfl
      connectTimeoutMs := hms
      seed := rfl
      running := hrunning.trans henabled.symm
      faults := ⟨rfl, rfl⟩
      generations := ⟨rfl, rfl⟩
      namespaces := ⟨rfl, rfl⟩ }

/-! ## The call among others -/

namespace ControlState

variable (serviceSeed : UInt64) (request : NativeProxyRequestV1)

/-- Where the call of a request may be. -/
def CreatePhase : Task → Prop
  | .checking spec | .createBinding spec => request.validate = .ok () ∧ spec = request.spec
  | .createSpawning spec _ | .inserting spec _ _ =>
    request.validate = .ok () ∧ spec = request.registered serviceSeed
  | .abandoning _ _ _ caller => caller = none
  | .returned _ => True
  | _ => False

/-- The call has an answer. -/
def answered : Task → Bool
  | .returned (.ok _) => true
  | _ => false

/-- One await of the call: it goes on without writing, or it registers the proxy
and succeeds. -/
inductive Creates (s : ControlState) (task : Task) (out : ControlState × Task) : Prop
  | goesOn (hproxies : out.1.proxies = s.proxies) (hphase : CreatePhase serviceSeed request out.2)
      (hanswer : answered out.2 = false ∨ answered task = true)
  | registers (entry : ManagedProxy) (hvalid : request.validate = .ok ())
      (hspec : entry.spec = request.registered serviceSeed)
      (hrunning : entry.running = true) (hfree : s.proxies.get request.name = none)
      (hproxies : out.1.proxies = s.proxies.insert request.name entry) (hphase : CreatePhase serviceSeed request out.2)

variable {serviceSeed request} {s : ControlState}

theorem proceed_creates {task : Task} (h : CreatePhase serviceSeed request task) (bind : Except String SocketAddr) :
    Creates serviceSeed request s task (s.proceed serviceSeed task bind) := by
  cases task with
  | checking spec =>
    unfold proceed
    dsimp only
    split
    · exact .goesOn rfl trivial (.inl rfl)
    · split
      · exact .goesOn rfl trivial (.inl rfl)
      · exact .goesOn rfl h (.inl rfl)
  | createBinding spec =>
    cases bind with
    | error reason => exact .goesOn rfl trivial (.inl rfl)
    | ok bound =>
      obtain ⟨hvalid, rfl⟩ := h
      exact .goesOn rfl ⟨hvalid, rfl⟩ (.inl rfl)
  | createSpawning spec bound => exact .goesOn rfl h (.inl rfl)
  | inserting spec bound k =>
    obtain ⟨hvalid, rfl⟩ := h
    unfold proceed
    dsimp only
    split
    · exact .goesOn rfl rfl (.inl rfl)
    · next hfree =>
      split
      · exact .goesOn rfl rfl (.inl rfl)
      · exact .registers _ hvalid rfl rfl (Option.not_isSome_iff_eq_none.1 hfree) rfl trivial
  | abandoning name k e caller =>
    cases h
    unfold proceed
    dsimp only
    split
    · exact .goesOn rfl trivial (.inl rfl)
    · exact .goesOn rfl rfl (.inl rfl)
  | returned result =>
    cases result with
    | error e => exact .goesOn rfl trivial (.inl rfl)
    | ok answer => exact .goesOn rfl trivial (.inr rfl)
  | _ => exact h.elim

theorem start_creates : CreatePhase serviceSeed request (applyProxyRequest serviceSeed s request).2 := by
  unfold applyProxyRequest
  cases hspec : proxyRequestIntoSpec request with
  | error message => exact trivial
  | ok spec =>
    obtain ⟨rfl, hvalid, hspecvalid⟩ := proxyRequestIntoSpec_ok hspec
    simp only [start, hspecvalid]
    exact ⟨hvalid, rfl⟩

theorem applyProxyRequest_regenerated : Regenerated s (applyProxyRequest serviceSeed s request).1 := by
  unfold applyProxyRequest
  cases proxyRequestIntoSpec request with
  | error message => exact .refl s
  | ok spec => exact s.start_regenerated serviceSeed (.create spec)

/-! ## The call among others -/

/-- What becomes of call `i` in a step: only its own awaits move it. -/
theorem step_task (i : Nat) (call : ControlCall) (hcall : s.calls[i]? = some call) (o : Op) :
    ((s.step serviceSeed o).calls[i]? = some call ∧ ∀ bind, o ≠ .advance i bind) ∨
      ∃ bind, o = .advance i bind ∧
        (s.step serviceSeed o).calls[i]? = some { call with task := (s.proceed serviceSeed call.task bind).2 } := by
  have hi : i < s.calls.length := (List.getElem?_eq_some_iff.1 hcall).1
  cases o with
  | begin control =>
    refine .inl ⟨?_, by simp⟩
    simp only [step, (s.start_regenerated serviceSeed control).calls]
    rw [List.getElem?_append_left hi]
    exact hcall
  | supervisor k turn =>
    refine .inl ⟨?_, by simp⟩
    rw [step_supervisor_calls]
    exact hcall
  | advance j bind =>
    by_cases hj : j = i
    · subst hj
      refine .inr ⟨bind, rfl, ?_⟩
      simp only [step, hcall, proceed_calls, List.getElem?_set_self hi]
    · refine .inl ⟨?_, fun _ h => hj (Op.advance.inj h).1⟩
      simp only [step]
      cases s.calls[j]? with
      | none => exact hcall
      | some other =>
        simp only [proceed_calls]
        rw [List.getElem?_set_ne hj]
        exact hcall

/-- Call `i` is the call of the request. -/
def Creating (serviceSeed : UInt64) (request : NativeProxyRequestV1) (i : Nat) (s : ControlState) : Prop :=
  ∃ call, s.calls[i]? = some call ∧ CreatePhase serviceSeed request call.task

theorem Creates.phase {task : Task} {out : ControlState × Task} (h : Creates serviceSeed request s task out) :
    CreatePhase serviceSeed request out.2 := by
  cases h with
  | goesOn _ hphase _ => exact hphase
  | registers _ _ _ _ _ _ hphase => exact hphase

theorem Creates.others {task : Task} {out : ControlState × Task} (h : Creates serviceSeed request s task out)
    {name : String} (hne : name ≠ request.name) : out.1.proxies.get name = s.proxies.get name := by
  cases h with
  | goesOn hproxies _ _ => rw [hproxies]
  | registers entry _ _ _ _ hproxies _ =>
    rw [hproxies, Registry.get_insert, if_neg (Ne.symm hne), Option.or_none]

theorem Creating.receive : Creating serviceSeed request s.calls.length (s.receive serviceSeed request) := by
  refine ⟨⟨.create request.spec, (applyProxyRequest serviceSeed s request).2⟩, ?_, start_creates⟩
  simp only [ControlState.receive, applyProxyRequest_regenerated.calls]
  exact List.getElem?_concat_length

theorem Creating.step {i : Nat} (h : Creating serviceSeed request i s) (o : Op) :
    Creating serviceSeed request i (s.step serviceSeed o) := by
  obtain ⟨call, hcall, hphase⟩ := h
  rcases step_task i call hcall o with ⟨hsame, -⟩ | ⟨bind, -, hnext⟩
  · exact ⟨call, hsame, hphase⟩
  · exact ⟨_, hnext, (proceed_creates hphase bind).phase⟩

theorem Creating.run {i : Nat} (h : Creating serviceSeed request i s) (ops : List Op) :
    Creating serviceSeed request i (Lib.run (ControlState.step serviceSeed) s ops) :=
  run_inv (Creating serviceSeed request i) (fun _ o hs => hs.step o) h ops

/-- The registry after an await of the call is the one that await leaves. -/
theorem step_advance_proxies {i : Nat} {call : ControlCall} (hcall : s.calls[i]? = some call)
    (bind : Except String SocketAddr) :
    (s.step serviceSeed (.advance i bind)).proxies = (s.proceed serviceSeed call.task bind).1.proxies := by
  simp only [ControlState.step, hcall]

theorem Creating.others {i : Nat} (h : Creating serviceSeed request i s) (bind : Except String SocketAddr) {name : String}
    (hne : name ≠ request.name) : (s.step serviceSeed (.advance i bind)).proxies.get name = s.proxies.get name := by
  obtain ⟨call, hcall, hphase⟩ := h
  rw [step_advance_proxies hcall]
  exact (proceed_creates hphase bind).others hne

variable (serviceSeed s)

/-- In this step call `i` gets its answer. -/
def Succeeds (i : Nat) (bind : Except String SocketAddr) : Prop :=
  (∀ call ∈ s.calls[i]?, ¬ answered call.task) ∧
    ∃ call ∈ (s.step serviceSeed (.advance i bind)).calls[i]?, answered call.task

instance Succeeds.decidable (i : Nat) (bind : Except String SocketAddr) :
    Decidable (s.Succeeds serviceSeed i bind) :=
  inferInstanceAs (Decidable (_ ∧ _))

/-- The step is none of a call that works on this proxy. -/
def Spares (name : String) (s : ControlState) : Op → Prop
  | .advance j _ => ∀ call, s.calls[j]? = some call → ∃ name', name' ≠ name ∧ call.task.About name'
  | .begin _ | .supervisor _ _ => True

variable {serviceSeed s}

/-- The step that answers the call is the one that registers the proxy. -/
theorem Creating.registered {i : Nat} (h : Creating serviceSeed request i s) {bind : Except String SocketAddr}
    (hsucceeds : s.Succeeds serviceSeed i bind) :
    ∃ entry, (s.step serviceSeed (.advance i bind)).proxies.get request.name = some entry ∧
      request.validate = .ok () ∧ entry.spec = request.registered serviceSeed ∧ entry.running = true := by
  obtain ⟨call, hcall, hphase⟩ := h
  obtain ⟨hbefore, after, hafter, hanswered⟩ := hsucceeds
  have hi : i < s.calls.length := (List.getElem?_eq_some_iff.1 hcall).1
  have htask : after.task = (s.proceed serviceSeed call.task bind).2 := by
    simp only [ControlState.step, hcall, proceed_calls, List.getElem?_set_self hi] at hafter
    rw [← Option.some.inj hafter]
  rw [htask] at hanswered
  rw [step_advance_proxies hcall]
  have hawait : Creates serviceSeed request s call.task (s.proceed serviceSeed call.task bind) :=
    proceed_creates hphase bind
  cases hawait with
  | goesOn _ _ hanswer =>
    rcases hanswer with hnone | hearly
    · rw [hnone] at hanswered
      cases hanswered
    · exact absurd hearly (hbefore call hcall)
  | registers entry hvalid hspec hrunning hfree hproxies _ =>
    refine ⟨entry, ?_, hvalid, hspec, hrunning⟩
    rw [hproxies, Registry.get_insert, hfree, if_pos rfl, Option.none_or]

theorem Spares.step {name : String} {o : Op} (h : Spares name s o) :
    (s.step serviceSeed o).proxies.get name = s.proxies.get name := by
  cases o with
  | begin control => simp only [ControlState.step, (s.start_regenerated serviceSeed control).proxies]
  | supervisor k turn => rw [step_supervisor_proxies]
  | advance j bind =>
    cases hcall : s.calls[j]? with
    | none => simp only [ControlState.step, hcall]
    | some call =>
      obtain ⟨name', hne, habout⟩ := h call hcall
      rw [step_advance_proxies hcall]
      exact Proceeds.others s (s.proceed_cases serviceSeed call.task bind) habout hne.symm

theorem Spares.run {name : String} {ops : List Op} (h : Along (ControlState.step serviceSeed) (Spares name) s ops) :
    (Lib.run (ControlState.step serviceSeed) s ops).proxies.get name = s.proxies.get name :=
  run_inv_along (fun s' => s'.proxies.get name = s.proxies.get name) (fun _ _ hs ho => ho.step.trans hs) rfl h

/-- A creation request among any other calls, up to the await that answers it: its
view, and what is read of it later while nobody works on it, show the request, and
no other proxy was touched, exactly if it asked for an enabled proxy. -/
theorem created_as_requested_iff (serviceSeed : UInt64) (request : NativeProxyRequestV1) (s : ControlState) (ops : List Op)
    (bind : Except String SocketAddr) (later : List Op)
    (hsucceeds : (Lib.run (ControlState.step serviceSeed) (s.receive serviceSeed request) ops).Succeeds serviceSeed
      s.calls.length bind)
    (hlater : Along (ControlState.step serviceSeed) (Spares request.name)
      (Lib.run (ControlState.step serviceSeed) (s.receive serviceSeed request)
        (ops ++ [.advance s.calls.length bind])) later) :
    ((∃ view, view.Shows serviceSeed request ∧ ∀ rest, rest <+: later →
        (Lib.run (ControlState.step serviceSeed) (s.receive serviceSeed request)
          (ops ++ [.advance s.calls.length bind] ++ rest)).view request.name = some view) ∧
      ∀ pre b, pre ++ [.advance s.calls.length b] <+: ops ++ [.advance s.calls.length bind] →
        ∀ name ≠ request.name,
          (Lib.run (ControlState.step serviceSeed) (s.receive serviceSeed request)
              (pre ++ [.advance s.calls.length b])).proxies.get name =
            (Lib.run (ControlState.step serviceSeed) (s.receive serviceSeed request) pre).proxies.get name) ↔
      request.enabled = true := by
  have hcreating : Creating serviceSeed request s.calls.length (s.receive serviceSeed request) := .receive
  obtain ⟨entry, hget, hvalid, hspec, hrunning⟩ := (hcreating.run ops).registered hsucceeds
  have hview : ∀ rest, rest <+: later →
      (Lib.run (ControlState.step serviceSeed) (s.receive serviceSeed request)
        (ops ++ [.advance s.calls.length bind] ++ rest)).view request.name = some (.ofView (viewOf entry)) := by
    intro rest hrest
    obtain ⟨tail, rfl⟩ := hrest
    rw [run_append, ControlState.view, Spares.run (along_append.1 hlater).1, run_append, run_cons, run_nil, hget,
      Option.map_some]
  have hiff := registered_shows_iff hvalid hspec hrunning
  constructor
  · rintro ⟨⟨view, hshows, hread⟩, -⟩
    have hsame := (hview [] List.nil_prefix).symm.trans (hread [] List.nil_prefix)
    rw [← Option.some.inj hsame] at hshows
    exact hiff.1 hshows
  · intro henabled
    refine ⟨⟨_, hiff.2 henabled, hview⟩, ?_⟩
    intro pre b _ name hne
    rw [run_append]
    exact (hcreating.run pre).others b hne

/-! ## A request for a proxy that is not enabled -/

def disabledRequest : NativeProxyRequestV1 where
  name := "p"
  listen := ⟨.v4 127 0 0 1, 0⟩
  upstream := ⟨.v4 127 0 0 1, 2000⟩
  enabled := false
  maxConnections := some 5
  connectTimeoutMs := 1500
  seed := 3

def enabledRequest : NativeProxyRequestV1 := { disabledRequest with enabled := true }

/-- The awaits of a creation before the last: the checks, the bind and the spawn. -/
def creationOps : List Op := List.replicate 3 (.advance 0 (.ok ⟨.v4 127 0 0 1, 1000⟩))

/-- Afterwards the supervisor starts to accept and another proxy is imported. -/
def laterOps : List Op :=
  [.supervisor 0 .look, .begin (.importDefinition { plainSpec with name := "q" }), .advance 1 (.error "")]

theorem laterOps_spare :
    Along (ControlState.step 9) (Spares enabledRequest.name)
      (Lib.run (ControlState.step 9) (ControlState.empty.receive 9 enabledRequest)
        (creationOps ++ [.advance 0 (.ok ⟨.v4 127 0 0 1, 1000⟩)])) laterOps := by
  refine ⟨trivial, trivial, ?_, trivial⟩
  intro call hcall
  cases hcall
  exact ⟨"q", by decide, rfl⟩

theorem created_as_requested_iff_enabled :
    ∃ view, view.Shows 9 enabledRequest ∧ ∀ rest, rest <+: laterOps →
      (Lib.run (ControlState.step 9) (ControlState.empty.receive 9 enabledRequest)
        (creationOps ++ [.advance 0 (.ok ⟨.v4 127 0 0 1, 1000⟩)] ++ rest)).view "p" = some view :=
  ((created_as_requested_iff 9 enabledRequest .empty creationOps (.ok ⟨.v4 127 0 0 1, 1000⟩) laterOps
    (by decide) laterOps_spare).2 rfl).1

/-- The proxy is asked for disabled; it is created enabled, and it runs. -/
theorem disabled_request_starts :
    let s := Lib.run (ControlState.step 9) (ControlState.empty.receive 9 disabledRequest) creationOps
    let created := s.step 9 (.advance 0 (.ok ⟨.v4 127 0 0 1, 1000⟩))
    s.Succeeds 9 0 (.ok ⟨.v4 127 0 0 1, 1000⟩) ∧
      (created.view "p").map (fun view => (view.enabled, view.running)) = some (true, true) ∧
      ∀ view, created.view "p" = some view → ¬ view.Shows 9 disabledRequest := by
  have hview : (((Lib.run (ControlState.step 9) (ControlState.empty.receive 9 disabledRequest) creationOps).step 9
      (.advance 0 (.ok ⟨.v4 127 0 0 1, 1000⟩))).view "p").map (fun view => (view.enabled, view.running)) =
        some (true, true) := by
    decide
  refine ⟨by decide, hview, ?_⟩
  intro view hread hshows
  rw [hread, Option.map_some] at hview
  have henabled : view.enabled = true := congrArg (·.1) (Option.some.inj hview)
  exact absurd (hshows.enabled.symm.trans henabled) (by decide)

end ControlState

end Eggchaos
