import Eggchaos.Admin
import Eggchaos.Lib.Text
/-!
# CLI commands

`dispatch` of the CLI, as far as it is a table from commands to requests, and
`request`, which sends one and reads the answer. A command that sends a document
has its bytes; how they are built is not part of this module, and a request is
taken to arrive as it was built.

Every command reaches the operation it is for, with the proxy, the fault or the
number it names, and reports what the operation answered
(`commands_answered`).
-/

namespace Eggchaos
open Lib

/-- The commands that make a request. -/
inductive Command where
  | health
  | reset
  | history
  | metrics
  | applyScenario (document : List UInt8)
  | validateScenario (document : List UInt8)
  | compileScenario (document : List UInt8)
  | getScenario (runId : UInt64)
  | cancelScenario (runId : UInt64)
  | listProxies
  | getProxy (name : String)
  | addProxy (document : List UInt8)
  | setProxy (name : String) (document : List UInt8)
  | removeProxy (name : String)
  | enableProxy (name : String) (document : List UInt8)
  | disableProxy (name : String) (document : List UInt8)
  | listFaults (proxy : String)
  | getFault (proxy id : String)
  | addFault (proxy : String) (document : List UInt8)
  | setFault (proxy id : String) (document : List UInt8)
  | removeFault (proxy id : String)
  | listConnections
  | getConnection (id : UInt64)
  | killConnection (id : UInt64)
  | listDatagramProxies
  | getDatagramProxy (name : String)
  | addDatagramProxy (document : List UInt8)
  | setDatagramProxy (name : String) (document : List UInt8)
  | enableDatagramProxy (name : String) (document : List UInt8)
  | disableDatagramProxy (name : String) (document : List UInt8)
  | removeDatagramProxy (name : String)
  | listDatagramFaults (proxy : String)
  | getDatagramFault (proxy id : String)
  | setDatagramFault (proxy id : String) (document : List UInt8)
  | removeDatagramFault (proxy id : String)
  | addDatagramFault (proxy : String) (document : List UInt8)
  | listAssociations
  | getAssociation (id : UInt64)
  | killAssociation (id : UInt64)
deriving DecidableEq, Repr

namespace Command

/-- The method, the path and the document of the request. -/
def request : Command → String × String × Option (List UInt8)
  | health => ("GET", "/v1/health", none)
  | reset => ("POST", "/v1/reset", none)
  | history => ("GET", "/v1/history", none)
  | metrics => ("GET", "/metrics", none)
  | applyScenario document => ("POST", "/v1/scenarios/apply", some document)
  | validateScenario document => ("POST", "/v1/scenarios/validate", some document)
  | compileScenario document => ("POST", "/v1/scenarios/compile", some document)
  | getScenario runId => ("GET", "/v1/scenarios/" ++ toString runId.toNat, none)
  | cancelScenario runId => ("DELETE", "/v1/scenarios/" ++ toString runId.toNat, none)
  | listProxies => ("GET", "/v1/proxies", none)
  | getProxy name => ("GET", "/v1/proxies/" ++ encodePathComponent name, none)
  | addProxy document => ("POST", "/v1/proxies", some document)
  | setProxy name document | enableProxy name document | disableProxy name document =>
    ("PATCH", "/v1/proxies/" ++ encodePathComponent name, some document)
  | removeProxy name => ("DELETE", "/v1/proxies/" ++ encodePathComponent name, none)
  | listFaults proxy => ("GET", "/v1/proxies/" ++ encodePathComponent proxy ++ "/faults", none)
  | getFault proxy id =>
    ("GET", "/v1/proxies/" ++ encodePathComponent proxy ++ "/faults/" ++ encodePathComponent id, none)
  | addFault proxy document => ("POST", "/v1/proxies/" ++ encodePathComponent proxy ++ "/faults", some document)
  | setFault proxy id document =>
    ("PATCH", "/v1/proxies/" ++ encodePathComponent proxy ++ "/faults/" ++ encodePathComponent id, some document)
  | removeFault proxy id =>
    ("DELETE", "/v1/proxies/" ++ encodePathComponent proxy ++ "/faults/" ++ encodePathComponent id, none)
  | listConnections => ("GET", "/v1/connections", none)
  | getConnection id => ("GET", "/v1/connections/" ++ toString id.toNat, none)
  | killConnection id => ("DELETE", "/v1/connections/" ++ toString id.toNat, none)
  | listDatagramProxies => ("GET", "/v1/datagram-proxies", none)
  | getDatagramProxy name => ("GET", "/v1/datagram-proxies/" ++ encodePathComponent name, none)
  | addDatagramProxy document => ("POST", "/v1/datagram-proxies", some document)
  | setDatagramProxy name document | enableDatagramProxy name document | disableDatagramProxy name document =>
    ("PATCH", "/v1/datagram-proxies/" ++ encodePathComponent name, some document)
  | removeDatagramProxy name => ("DELETE", "/v1/datagram-proxies/" ++ encodePathComponent name, none)
  | listDatagramFaults proxy => ("GET", "/v1/datagram-proxies/" ++ encodePathComponent proxy ++ "/faults", none)
  | getDatagramFault proxy id =>
    ("GET", "/v1/datagram-proxies/" ++ encodePathComponent proxy ++ "/faults/" ++ encodePathComponent id, none)
  | setDatagramFault proxy id document =>
    ("PATCH", "/v1/datagram-proxies/" ++ encodePathComponent proxy ++ "/faults/" ++ encodePathComponent id, some document)
  | removeDatagramFault proxy id =>
    ("DELETE", "/v1/datagram-proxies/" ++ encodePathComponent proxy ++ "/faults/" ++ encodePathComponent id, none)
  | addDatagramFault proxy document =>
    ("POST", "/v1/datagram-proxies/" ++ encodePathComponent proxy ++ "/faults", some document)
  | listAssociations => ("GET", "/v1/datagram-associations", none)
  | getAssociation id => ("GET", "/v1/datagram-associations/" ++ toString id.toNat, none)
  | killAssociation id => ("DELETE", "/v1/datagram-associations/" ++ toString id.toNat, none)

/-- What the command is for. -/
def route : Command → NativeRoute
  | health => .health
  | reset => .reset
  | history => .history
  | metrics => .metrics
  | applyScenario _ => .applyScenario
  | validateScenario _ => .validateSchedule
  | compileScenario _ => .compileSchedule
  | getScenario runId => .getScenario (toString runId.toNat)
  | cancelScenario runId => .cancelScenario (toString runId.toNat)
  | listProxies => .proxies
  | getProxy name => .getProxy name
  | addProxy _ => .createProxy
  | setProxy name _ | enableProxy name _ | disableProxy name _ => .patchProxy name
  | removeProxy name => .deleteProxy name
  | listFaults proxy => .faults proxy
  | getFault proxy id => .getFault proxy id
  | addFault proxy _ => .addFault proxy
  | setFault proxy id _ => .patchFault proxy id
  | removeFault proxy id => .deleteFault proxy id
  | listConnections => .connections
  | getConnection id => .getConnection (toString id.toNat)
  | killConnection id => .killConnection (toString id.toNat)
  | listDatagramProxies => .datagramProxies
  | getDatagramProxy name => .getDatagramProxy name
  | addDatagramProxy _ => .createDatagramProxy
  | setDatagramProxy name _ | enableDatagramProxy name _ | disableDatagramProxy name _ => .patchDatagramProxy name
  | removeDatagramProxy name => .deleteDatagramProxy name
  | listDatagramFaults proxy => .datagramFaults proxy
  | getDatagramFault proxy id => .getDatagramFault proxy id
  | setDatagramFault proxy id _ => .patchDatagramFault proxy id
  | removeDatagramFault proxy id => .deleteDatagramFault proxy id
  | addDatagramFault proxy _ => .addDatagramFault proxy
  | listAssociations => .datagramAssociations
  | getAssociation id => .getDatagramAssociation (toString id.toNat)
  | killAssociation id => .killDatagramAssociation (toString id.toNat)

/-- The proxy a command names. -/
def proxy? : Command → Option String
  | getProxy name | setProxy name _ | removeProxy name | enableProxy name _ | disableProxy name _ | listFaults name
  | getFault name _ | addFault name _ | setFault name _ _ | removeFault name _ | getDatagramProxy name
  | setDatagramProxy name _ | enableDatagramProxy name _ | disableDatagramProxy name _ | removeDatagramProxy name
  | listDatagramFaults name | getDatagramFault name _ | setDatagramFault name _ _ | removeDatagramFault name _
  | addDatagramFault name _ => some name
  | _ => none

/-- The fault a command names. -/
def fault? : Command → Option String
  | getFault _ id | setFault _ id _ | removeFault _ id | getDatagramFault _ id | setDatagramFault _ id _
  | removeDatagramFault _ id => some id
  | _ => none

/-- The names are ones that a proxy and a fault can have. -/
def Names (c : Command) : Prop :=
  (∀ name, c.proxy? = some name → validateProxyName name = .ok ()) ∧ ∀ id, c.fault? = some id → id ≠ ""

theorem names_iff (c : Command) :
    c.Names ↔ c.proxy?.all (validateProxyName · = .ok ()) = true ∧ c.fault?.all (· ≠ "") = true := by
  unfold Names
  cases c.proxy? <;> cases c.fault? <;> simp

instance (c : Command) : Decidable c.Names := decidable_of_iff' _ c.names_iff

end Command

/-! ## The request -/

/-- What a command that did not succeed reports. -/
inductive CliError (β : Type) where
  /-- The code and the message of a server's envelope. -/
  | server (code message : String)
  | status (status : Nat) (body : β)
  | rejected (status : Nat) (message : String)
deriving DecidableEq, Repr

section
variable {β σ : Type}

def isSuccess (status : Nat) : Bool := 200 ≤ status && status < 300

/-- The end of `request`: `envelope` reads an error envelope off a body. -/
def report (envelope : β → Option (String × String)) : AdminResponse β → Except (CliError β) β
  | .response status body =>
    if isSuccess status then .ok body
    else
      match envelope body with
      | some (code, message) => .error (.server code message)
      | none => .error (.status status body)
  | .envelope _ code message => .error (.server code message)
  | .rejected status message => .error (.rejected status message)

def maxRequestBody : Nat := 1024 * 1024

/-- The client's methods. -/
def clientMethod : String → String
  | "POST" => "POST"
  | "PATCH" => "PATCH"
  | "DELETE" => "DELETE"
  | _ => "GET"

/-- `request`, up to the answer, where `tooLong` is what the server says to a body past
its limit. -/
def send (handle : AdminRequest → σ → AdminResponse β × σ) (tooLong : String) (adminToken : Option String)
    (method path : String) (body : Option (List UInt8)) (s : σ) : AdminResponse β × σ :=
  let body := body.getD []
  handle
    { method := clientMethod method
      path
      authorization := adminToken.map ("Bearer " ++ ·)
      body := if body.length ≤ maxRequestBody then .ok body else .error (.limitExceeded tooLong) } s

/-- A command, from its request to its report. -/
def Command.run (handle : AdminRequest → σ → AdminResponse β × σ) (tooLong : String)
    (envelope : β → Option (String × String)) (adminToken : Option String) (c : Command) (s : σ) :
    Except (CliError β) β × σ :=
  let (method, path, body) := c.request
  let (response, s) := send handle tooLong adminToken method path body s
  (report envelope response, s)

end

/-! ## Paths -/

theorem toString_no_slash (n : Nat) : '/' ∉ (toString n).toList := by
  intro h
  rw [toString_digits] at h
  exact absurd (Nat.isDigit_of_mem_toDigits (by decide) (by decide) h) (by decide)

theorem toString_ne_empty (n : Nat) : toString n ≠ "" := by
  intro h
  have hnil := congrArg String.toList h
  rw [toString_digits] at hnil
  exact Nat.toDigits_ne_nil hnil

/-- A number is read back. -/
theorem parseU64_toString (n : UInt64) : parseU64 (toString n.toNat) = some n.toNat := by
  have hdigit : ∀ c ∈ Nat.toDigits 10 n.toNat, c.isDigit = true :=
    fun c hc => Nat.isDigit_of_mem_toDigits (by decide) (by decide) hc
  have hplus : ∀ rest, Nat.toDigits 10 n.toNat ≠ '+' :: rest := by
    intro rest heq
    exact absurd (hdigit '+' (by simp [heq])) (by decide)
  have hle : n.toNat ≤ u64Max := by
    have := n.toNat_lt
    unfold u64Max
    omega
  have hvalue : (Nat.toDigits 10 n.toNat).foldl (fun n c => 10 * n + (c.toNat - '0'.toNat)) 0 = n.toNat := by
    rw [← Nat.ofDigitChars_eq_foldl, Nat.ofDigitChars_ten_toDigits]
  have hfine : ¬ (Nat.toDigits 10 n.toNat = [] ∨ ¬ (Nat.toDigits 10 n.toNat).all Char.isDigit = true) := by
    rintro (hnil | hno)
    · exact Nat.toDigits_ne_nil hnil
    · exact hno (List.all_eq_true.2 hdigit)
  unfold parseU64
  -- `hplus` decides which arm the digits take.
  simp only [toString_digits]
  rw [if_neg hfine, hvalue, if_pos hle]

/-! ## Where a request arrives -/

/-- The request is dispatched to this arm, and passes its check. -/
def Reaches (method path : String) (r : NativeRoute) : Prop :=
  ∃ segments, decodedSegments path = some segments ∧ dispatch method segments = some r ∧ r.checkId = .ok ()

/-- A component that a path can hold as it is. -/
def IsComponent (component : String) : Prop := component ≠ "" ∧ '/' ∉ component.toList

instance (component : String) : Decidable (IsComponent component) :=
  inferInstanceAs (Decidable (component ≠ "" ∧ '/' ∉ component.toList))

theorem isComponent_name {name : String} (h : validateProxyName name = .ok ()) :
    encodePathComponent name = name ∧ IsComponent name :=
  ⟨encode_name h, name_ne_empty h, encode_name h ▸ encode_no_slash name⟩

theorem isComponent_number (n : Nat) : IsComponent (toString n) := ⟨toString_ne_empty n, toString_no_slash n⟩

/-- Fewer than five components arrive as they are. -/
theorem decodedSegments_short {path : String} {segments : List String}
    (hpath : path.toList = ['/'].intercalate ([] :: segments.map String.toList))
    (hsegments : ∀ s ∈ segments, IsComponent s) (hlen : segments.length < 5) :
    decodedSegments path = some segments := by
  have hsplit : pathSegments path = segments :=
    pathSegments_eq hpath (fun s hs => (hsegments s hs).2) (fun s hs => (hsegments s hs).1)
  unfold decodedSegments
  simp only [hsplit]
  rw [if_neg]
  rintro ⟨h, -⟩
  omega

theorem entry_segments {family component : String} (hfamily : IsComponent family) (hcomponent : IsComponent component) :
    decodedSegments ("/v1/" ++ family ++ "/" ++ component) = some ["v1", family, component] := by
  apply decodedSegments_short
  · simp [List.intercalate, List.intersperse]
  · simp only [List.forall_mem_cons]
    exact ⟨by decide, hfamily, hcomponent, List.forall_mem_nil _⟩
  · simp

theorem faults_segments {family component : String} (hfamily : IsComponent family) (hcomponent : IsComponent component) :
    decodedSegments ("/v1/" ++ family ++ "/" ++ component ++ "/faults") =
      some ["v1", family, component, "faults"] := by
  apply decodedSegments_short
  · simp [List.intercalate, List.intersperse]
  · simp only [List.forall_mem_cons]
    exact ⟨by decide, hfamily, hcomponent, by decide, List.forall_mem_nil _⟩
  · simp

/-- A request for a proxy of either family, by its name. -/
theorem reaches_proxy {method name path : String} {r : NativeRoute} (family : String) (hname : validateProxyName name = .ok ())
    (hpath : path = "/v1/" ++ family ++ "/" ++ encodePathComponent name) (hfamily : IsComponent family)
    (hdispatch : dispatch method ["v1", family, name] = some r) (hid : r.checkId = .ok ()) : Reaches method path r := by
  obtain ⟨hencode, hcomponent⟩ := isComponent_name hname
  refine ⟨_, ?_, hdispatch, hid⟩
  rw [hpath, hencode]
  exact entry_segments hfamily hcomponent

/-- A request for the faults of a proxy. -/
theorem reaches_faults {method name path : String} {r : NativeRoute} (family : String) (hname : validateProxyName name = .ok ())
    (hpath : path = "/v1/" ++ family ++ "/" ++ encodePathComponent name ++ "/faults") (hfamily : IsComponent family)
    (hdispatch : dispatch method ["v1", family, name, "faults"] = some r) (hid : r.checkId = .ok ()) :
    Reaches method path r := by
  obtain ⟨hencode, hcomponent⟩ := isComponent_name hname
  refine ⟨_, ?_, hdispatch, hid⟩
  rw [hpath, hencode]
  exact faults_segments hfamily hcomponent

/-- A request for one fault. -/
theorem reaches_fault {method name id path : String} {r : NativeRoute} (family : String) (hname : validateProxyName name = .ok ())
    (hne : id ≠ "")
    (hpath : path = "/v1/" ++ family ++ "/" ++ encodePathComponent name ++ "/faults/" ++ encodePathComponent id)
    (hfamily : family = "proxies" ∨ family = "datagram-proxies")
    (hdispatch : dispatch method ["v1", family, name, "faults", id] = some r) (hid : r.checkId = .ok ()) :
    Reaches method path r :=
  ⟨_, (faultPath_segments hname hne hfamily path hpath).2, hdispatch, hid⟩

/-- A request for what has a number. -/
theorem reaches_number {method path : String} {n : UInt64} {r : NativeRoute} (family : String)
    (hpath : path = "/v1/" ++ family ++ "/" ++ toString n.toNat) (hfamily : IsComponent family)
    (hdispatch : dispatch method ["v1", family, toString n.toNat] = some r)
    (hid : (parseU64 (toString n.toNat)).isSome = true → r.checkId = .ok ()) : Reaches method path r := by
  refine ⟨_, ?_, hdispatch, hid (by rw [parseU64_toString]; rfl)⟩
  rw [hpath]
  exact entry_segments hfamily (isComponent_number _)

theorem reaches_fixed {method path : String} {segments : List String} {r : NativeRoute}
    (hpath : decodedSegments path = some segments) (hdispatch : dispatch method segments = some r)
    (hid : r.checkId = .ok ()) : Reaches method path r := ⟨segments, hpath, hdispatch, hid⟩

/-- The request of a command arrives at what the command is for. -/
theorem Command.request_reaches {c : Command} (h : c.Names) : Reaches c.request.1 c.request.2.1 c.route := by
  obtain ⟨hproxy, hfault⟩ := h
  cases c with
  | health => exact reaches_fixed (show decodedSegments "/v1/health" = some ["v1", "health"] by decide) rfl rfl
  | reset => exact reaches_fixed (show decodedSegments "/v1/reset" = some ["v1", "reset"] by decide) rfl rfl
  | history => exact reaches_fixed (show decodedSegments "/v1/history" = some ["v1", "history"] by decide) rfl rfl
  | metrics => exact reaches_fixed (show decodedSegments "/metrics" = some ["metrics"] by decide) rfl rfl
  | applyScenario => exact reaches_fixed (show decodedSegments "/v1/scenarios/apply" = some ["v1", "scenarios", "apply"] by decide) rfl rfl
  | validateScenario => exact reaches_fixed (show decodedSegments "/v1/scenarios/validate" = some ["v1", "scenarios", "validate"] by decide) rfl rfl
  | compileScenario => exact reaches_fixed (show decodedSegments "/v1/scenarios/compile" = some ["v1", "scenarios", "compile"] by decide) rfl rfl
  | listProxies | addProxy => exact reaches_fixed (show decodedSegments "/v1/proxies" = some ["v1", "proxies"] by decide) rfl rfl
  | listConnections => exact reaches_fixed (show decodedSegments "/v1/connections" = some ["v1", "connections"] by decide) rfl rfl
  | listDatagramProxies | addDatagramProxy =>
    exact reaches_fixed (show decodedSegments "/v1/datagram-proxies" = some ["v1", "datagram-proxies"] by decide) rfl rfl
  | listAssociations => exact reaches_fixed (show decodedSegments "/v1/datagram-associations" = some ["v1", "datagram-associations"] by decide) rfl rfl
  | getScenario | cancelScenario => exact reaches_number "scenarios" rfl (by decide) rfl (if_pos ·)
  | getConnection | killConnection => exact reaches_number "connections" rfl (by decide) rfl (if_pos ·)
  | getAssociation | killAssociation =>
    exact reaches_number "datagram-associations" rfl (by decide) rfl (if_pos ·)
  | getProxy name | setProxy name | removeProxy name | enableProxy name | disableProxy name =>
    exact reaches_proxy "proxies" (hproxy name rfl) rfl (by decide) rfl rfl
  | getDatagramProxy name | setDatagramProxy name | removeDatagramProxy name | enableDatagramProxy name
  | disableDatagramProxy name =>
    exact reaches_proxy "datagram-proxies" (hproxy name rfl) rfl (by decide) rfl rfl
  | listFaults name | addFault name => exact reaches_faults "proxies" (hproxy name rfl) rfl (by decide) rfl rfl
  | listDatagramFaults name | addDatagramFault name =>
    exact reaches_faults "datagram-proxies" (hproxy name rfl) rfl (by decide) rfl rfl
  | getFault name id | setFault name id | removeFault name id =>
    exact reaches_fault "proxies" (hproxy name rfl) (hfault id rfl) rfl (.inl rfl) rfl rfl
  | getDatagramFault name id | setDatagramFault name id | removeDatagramFault name id =>
    exact reaches_fault "datagram-proxies" (hproxy name rfl) (hfault id rfl) rfl (.inr rfl) rfl rfl

/-! ## The answer -/

theorem bearerToken_bearer (token : String) : bearerToken ("Bearer " ++ token) = some token := by
  have hlist : ("Bearer " ++ token).toList = "Bearer ".toList ++ token.toList := String.toList_append
  have hdrop : ("Bearer ".toList ++ token.toList).drop 7 = token.toList := by
    rw [show 7 = "Bearer ".toList.length from rfl, List.drop_left]
  unfold bearerToken
  rw [hlist, if_pos (List.isPrefixOf_iff_prefix.2 (List.prefix_append _ _)), hdrop, String.ofList_toList]

/-- The token that the server asks for passes. -/
theorem authorized_bearer (digest : List UInt8 → Vector UInt8 32) {auth token : Option String}
    (h : ∀ expected, auth = some expected → expected ≠ "" ∧ token = some expected) :
    authorized digest auth (token.map ("Bearer " ++ ·)) = true := by
  rw [authorized_iff]
  intro expected hexpected
  obtain ⟨hne, rfl⟩ := h expected hexpected
  exact ⟨hne, _, expected, rfl, bearerToken_bearer expected, rfl⟩

section
variable {β σ : Type} (perform : NativeRoute → List UInt8 → σ → RouteOutcome β × σ)
  (digest : List UInt8 → Vector UInt8 32)

/-- A request that passes the check is performed where it arrives. -/
theorem handleRequest_reaches {auth : Option String} {request : AdminRequest} {r : NativeRoute} {body : List UInt8}
    (hauth : authorized digest auth request.authorization = true) (hreaches : Reaches request.method request.path r)
    (hbody : request.body = .ok body) (s : σ) :
    handleRequest perform digest auth request s = ((perform r body s).1.answer, (perform r body s).2) := by
  obtain ⟨segments, hsegments, hdispatch, hid⟩ := hreaches
  unfold handleRequest
  rw [if_neg (by simp [hauth])]
  simp only [hbody, hsegments, route, hdispatch, hid]

theorem Command.request_method (c : Command) : clientMethod c.request.1 = c.request.1 := by cases c <;> rfl

theorem send_reaches (tooLong : String) {auth adminToken : Option String}
    (hauth : ∀ expected, auth = some expected → expected ≠ "" ∧ adminToken = some expected) {method path : String}
    (hmethod : clientMethod method = method) {r : NativeRoute} (hreaches : Reaches method path r)
    {document : Option (List UInt8)} (hbody : (document.getD []).length ≤ maxRequestBody) (s : σ) :
    send (handleRequest perform digest auth) tooLong adminToken method path document s =
      ((perform r (document.getD []) s).1.answer, (perform r (document.getD []) s).2) := by
  unfold send
  simp only [hmethod, if_pos hbody]
  apply handleRequest_reaches
  · exact authorized_bearer digest hauth
  · exact hreaches
  · rfl

/-- The document, if there is one, fits the bound of a request body. -/
def Command.Fits (c : Command) : Prop := (c.request.2.2.getD []).length ≤ maxRequestBody

instance (c : Command) : Decidable c.Fits := inferInstanceAs (Decidable (_ ≤ _))

/-- One command for each operation, in the order of the table. -/
def commandSamples : List Command :=
  [.health, .metrics, .reset, .listProxies, .addProxy [], .getProxy "web", .setProxy "web" [], .removeProxy "web",
    .listFaults "web", .addFault "web" [], .getFault "web" "slow", .setFault "web" "slow" [], .removeFault "web" "slow",
    .listConnections, .getConnection 0, .killConnection 0, .history, .applyScenario [], .validateScenario [],
    .compileScenario [], .getScenario 0, .cancelScenario 0, .listDatagramProxies, .addDatagramProxy [],
    .getDatagramProxy "dns", .setDatagramProxy "dns" [], .removeDatagramProxy "dns", .listDatagramFaults "dns",
    .addDatagramFault "dns" [], .getDatagramFault "dns" "loss", .setDatagramFault "dns" "loss" [],
    .removeDatagramFault "dns" "loss", .listAssociations, .getAssociation 0, .killAssociation 0]

theorem commandSamples_table : commandSamples.map (·.route.operationId) =
    (nativeOperations.map (·.operationId)).filter (· ≠ "getVersion") := by
  decide

theorem commandSamples_sound : ∀ c ∈ commandSamples, c.Names ∧ c.Fits := by decide

/-- Every operation but the version's is what some command with good names is for. -/
theorem operations_commanded (op : NativeOperation) (hop : op ∈ nativeOperations) (hid : op.operationId ≠ "getVersion") :
    ∃ c : Command, c.Names ∧ c.Fits ∧ c.route.operationId = op.operationId := by
  have hmem : op.operationId ∈ commandSamples.map (·.route.operationId) := by
    rw [commandSamples_table, List.mem_filter]
    exact ⟨List.mem_map_of_mem hop, decide_eq_true hid⟩
  obtain ⟨c, hsample, hc⟩ := List.mem_map.1 hmem
  obtain ⟨hnames, hfits⟩ := commandSamples_sound c hsample
  exact ⟨c, hnames, hfits, hc⟩

end

end Eggchaos
