import Eggchaos.Lib.Runs
import Eggchaos.Proxy
import Eggchaos.Routes
/-!
# The admin listener

`NativeAdmin::start` and `handle_request`: who may bind where, which requests pass
the bearer check, and what becomes of a request's path. What an operation does once
it is dispatched is a parameter, and so is the SHA-256 digest.

Requests without the token leave no trace and all get one answer, and a listener
that is not on loopback never serves without a token (`admin_gated`). The others
reach the operation of `NATIVE_OPERATIONS` that their method and path fit
(`handleRequest_listed`).
-/

namespace Eggchaos
open Lib

/-- `is_loopback`. -/
def IpAddr.isLoopback : IpAddr → Bool
  | .v4 a _ _ _ => a = 127
  | .v6 bits => bits = 1

structure AdminConfig where
  bind : SocketAddr
  publicAdmin : Bool
  authToken : Option String
deriving DecidableEq, Repr

inductive AdminError where
  | insecurePublicBind
  | bind (message : String)
deriving DecidableEq, Repr

/-- `NativeAdmin::start`: the address it listens at, and the token it asks for. -/
def startAdmin (config : AdminConfig) (listen : SocketAddr → Except String SocketAddr) :
    Except AdminError (SocketAddr × Option String) :=
  if ¬ config.bind.ip.isLoopback ∧ (¬ config.publicAdmin ∨ config.authToken.all (· = "")) then
    .error .insecurePublicBind
  else
    match listen config.bind with
    | .error message => .error (.bind message)
    | .ok addr => .ok (addr, config.authToken)

/-! ## Requests -/

/-- Why a body could not be read. -/
inductive BodyError where
  | limitExceeded (message : String)
  | failed (message : String)
deriving DecidableEq, Repr

/-- `authorization` is the first such header, if it is visible ASCII. -/
structure AdminRequest where
  method : String
  path : String
  authorization : Option String
  body : Except BodyError (List UInt8)

/-- An answer of a route. -/
inductive RouteOutcome (β : Type) where
  | response (status : Nat) (body : β)
  | controlError (e : ControlError)
  | badJson (message : String)
  | notFound
deriving DecidableEq, Repr

/-- An answer on the wire: a body, an error envelope, or a rejection by the server. -/
inductive AdminResponse (β : Type) where
  | response (status : Nat) (body : β)
  | envelope (status : Nat) (code message : String)
  | rejected (status : Nat) (message : String)
deriving DecidableEq, Repr

namespace ControlError

def code : ControlError → String
  | .notFound _ => "not_found"
  | .conflict _ => "conflict"
  | .invalid _ => "invalid"
  | .bindFailed _ _ => "bind_failed"
  | .restartFailed _ _ => "restart_failed"

/-- `control_status`. -/
def status : ControlError → Nat
  | .notFound _ => 404
  | .conflict _ | .bindFailed _ _ => 409
  | .invalid _ => 400
  | .restartFailed _ _ => 500

end ControlError

/-! ## The bearer check -/

section
variable (digest : List UInt8 → Vector UInt8 32)

def constantTimeEqual (left right : List UInt8) : Bool :=
  ((digest left).toList.zip (digest right).toList).foldl (fun diff p => diff ||| (p.1 ^^^ p.2)) 0 = 0

/-- `strip_prefix("Bearer ")`. -/
def bearerToken (value : String) : Option String :=
  if "Bearer ".toList.isPrefixOf value.toList then some (String.ofList (value.toList.drop 7)) else none

/-- The check of `handle_request`: no token is asked for, or it is supplied. -/
def authorized (auth : Option String) (authorization : Option String) : Bool :=
  match auth with
  | none => true
  | some expected =>
    match authorization.bind bearerToken with
    | none => false
    | some token => expected ≠ "" && constantTimeEqual digest (utf8Bytes token) (utf8Bytes expected)

end

/-! ## Routes -/

/-- `u64::from_str`. -/
def parseU64 (text : String) : Option Nat :=
  let digits := match text.toList with
    | '+' :: rest => rest
    | l => l
  if digits = [] ∨ ¬ digits.all Char.isDigit then none
  else
    let n := digits.foldl (fun n c => 10 * n + (c.toNat - '0'.toNat)) 0
    if n ≤ u64Max then some n else none

/-- The arms that read their last segment as a number refuse any other. -/
def NativeRoute.checkId : NativeRoute → Except ControlError Unit
  | .getDatagramAssociation id | .killDatagramAssociation id =>
    if (parseU64 id).isSome then .ok () else .error (.invalid "datagram association id must be an integer")
  | .getConnection id | .killConnection id =>
    if (parseU64 id).isSome then .ok () else .error (.invalid "connection id must be an integer")
  | .getScenario id | .cancelScenario id =>
    if (parseU64 id).isSome then .ok () else .error (.invalid "scenario run id must be an integer")
  | _ => .ok ()

section
variable {β σ : Type} (perform : NativeRoute → List UInt8 → σ → RouteOutcome β × σ)

def route (method : String) (segments : List String) (body : List UInt8) (s : σ) : RouteOutcome β × σ :=
  match dispatch method segments with
  | none => (.notFound, s)
  | some r =>
    match r.checkId with
    | .error e => (.controlError e, s)
    | .ok () => perform r body s

def RouteOutcome.answer : RouteOutcome β → AdminResponse β
  | .response status body => .response status body
  | .controlError e => .envelope e.status e.code e.message
  | .badJson message => .envelope 400 "invalid_json" message
  | .notFound => .envelope 404 "not_found" "route not found"

variable (digest : List UInt8 → Vector UInt8 32)

def handleRequest (auth : Option String) (request : AdminRequest) (s : σ) : AdminResponse β × σ :=
  if ¬ authorized digest auth request.authorization then (.envelope 403 "unauthorized" "authorization required", s)
  else
    match request.body with
    | .error (.limitExceeded message) => (.rejected 413 message, s)
    | .error (.failed message) => (.rejected 400 message, s)
    | .ok body =>
      match decodedSegments request.path with
      | none => (.envelope 400 "invalid" "invalid path component", s)
      | some segments =>
        let (outcome, s) := route perform request.method segments body s
        (outcome.answer, s)

end

/-! ## The gate -/

theorem foldl_or_eq_zero (l : List (UInt8 × UInt8)) (diff : UInt8) :
    l.foldl (fun diff p => diff ||| (p.1 ^^^ p.2)) diff = 0 ↔ diff = 0 ∧ ∀ p ∈ l, p.1 = p.2 := by
  induction l generalizing diff with
  | nil => simp
  | cons p l ih =>
    rw [List.foldl_cons, ih, UInt8.or_eq_zero_iff, UInt8.xor_eq_zero_iff, List.forall_mem_cons, and_assoc]

theorem eq_of_zip {l l' : List UInt8} (hlen : l.length = l'.length) (h : ∀ p ∈ l.zip l', p.1 = p.2) : l = l' := by
  induction l generalizing l' with
  | nil => exact (List.length_eq_zero_iff.1 hlen.symm).symm
  | cons a l ih =>
    cases l' with
    | nil => cases hlen
    | cons b l' =>
      rw [List.zip_cons_cons, List.forall_mem_cons] at h
      rw [show a = b from h.1, ih (Nat.succ.inj hlen) h.2]

/-- The comparison looks at every byte, and finds the digests equal exactly if they are. -/
theorem constantTimeEqual_iff (digest : List UInt8 → Vector UInt8 32) (left right : List UInt8) :
    constantTimeEqual digest left right = true ↔ digest left = digest right := by
  unfold constantTimeEqual
  rw [decide_eq_true_eq, foldl_or_eq_zero]
  constructor
  · rintro ⟨-, h⟩
    refine Vector.toList_inj.1 (eq_of_zip ?_ h)
    rw [Vector.length_toList, Vector.length_toList]
  · intro h
    refine ⟨rfl, fun p hp => ?_⟩
    rw [h, List.zip_eq_zipWith, List.zipWith_self] at hp
    obtain ⟨byte, _, rfl⟩ := List.mem_map.1 hp
    rfl

section
variable (digest : List UInt8 → Vector UInt8 32)

/-- What passes the check of a token. -/
theorem authorized_iff (auth authorization : Option String) : authorized digest auth authorization = true ↔
    ∀ expected, auth = some expected → expected ≠ "" ∧ ∃ value token, authorization = some value ∧
      bearerToken value = some token ∧ digest (utf8Bytes token) = digest (utf8Bytes expected) := by
  cases auth with
  | none => simp [authorized]
  | some expected =>
    cases hbearer : authorization.bind bearerToken with
    | none =>
      have hno : ∀ value token, authorization = some value → bearerToken value ≠ some token := by
        rintro value token rfl htoken
        rw [Option.bind_some, htoken] at hbearer
        cases hbearer
      simp only [authorized, hbearer, Bool.false_eq_true, false_iff]
      intro h
      obtain ⟨_, value, token, hvalue, htoken, _⟩ := h expected rfl
      exact hno value token hvalue htoken
    | some token =>
      obtain ⟨value, rfl, htoken⟩ := Option.bind_eq_some_iff.1 hbearer
      simp only [authorized, hbearer, Bool.and_eq_true, decide_eq_true_eq, constantTimeEqual_iff]
      constructor
      · rintro ⟨hne, hdigest⟩ _ hexpected
        obtain rfl := Option.some.inj hexpected
        exact ⟨hne, value, token, rfl, htoken, hdigest⟩
      · intro h
        obtain ⟨hne, value', token', hvalue, htoken', hdigest⟩ := h expected rfl
        obtain rfl := Option.some.inj hvalue
        obtain rfl := Option.some.inj (htoken.symm.trans htoken')
        exact ⟨hne, hdigest⟩

variable {β σ : Type} (perform : NativeRoute → List UInt8 → σ → RouteOutcome β × σ)

/-- What the requests, one after the other, make of the state. -/
def serve (auth : Option String) (s : σ) (requests : List AdminRequest) : σ :=
  run (fun s request => (handleRequest perform digest auth request s).2) s requests

theorem handleRequest_unauthorized {auth : Option String} {request : AdminRequest}
    (h : authorized digest auth request.authorization = false) (s : σ) :
    handleRequest perform digest auth request s = (.envelope 403 "unauthorized" "authorization required", s) := by
  unfold handleRequest
  rw [if_pos (by simp [h])]

theorem serve_filter (auth : Option String) (s : σ) (requests : List AdminRequest) :
    serve digest perform auth s requests =
      serve digest perform auth s (requests.filter fun request => authorized digest auth request.authorization) := by
  induction requests generalizing s with
  | nil => rfl
  | cons request requests ih =>
    unfold serve at ih ⊢
    rw [run_cons, List.filter_cons]
    cases h : authorized digest auth request.authorization with
    | true => rw [if_pos rfl, run_cons, ih]
    | false => rw [if_neg (by simp), handleRequest_unauthorized digest perform h, ih]

/-- A started admin off loopback has a token, and it is not empty. -/
theorem startAdmin_secure {config : AdminConfig} {listen : SocketAddr → Except String SocketAddr} {addr : SocketAddr}
    {auth : Option String} (h : startAdmin config listen = .ok (addr, auth)) :
    auth = config.authToken ∧
      (config.bind.ip.isLoopback = false → config.publicAdmin = true ∧ ∃ token, auth = some token ∧ token ≠ "") := by
  unfold startAdmin at h
  split at h
  · cases h
  · next hsecure =>
    split at h
    · cases h
    · cases h
      refine ⟨rfl, fun hpublic => ?_⟩
      cases hadmin : config.publicAdmin with
      | false => exact absurd ⟨by simp [hpublic], .inl (by simp [hadmin])⟩ hsecure
      | true =>
        cases htoken : config.authToken with
        | none => exact absurd ⟨by simp [hpublic], .inr (by simp [htoken])⟩ hsecure
        | some token =>
          refine ⟨rfl, token, rfl, ?_⟩
          rintro rfl
          exact hsecure ⟨by simp [hpublic], .inr (by simp [htoken])⟩

/-- Whatever requests come in, those without the token are all answered alike and the
state is what the others make of it; off loopback a token is always asked for. -/
theorem admin_gated {config : AdminConfig} {listen : SocketAddr → Except String SocketAddr} {addr : SocketAddr}
    {auth : Option String} (h : startAdmin config listen = .ok (addr, auth)) (s : σ) (requests : List AdminRequest) :
    serve digest perform auth s requests =
      serve digest perform auth s (requests.filter fun request => authorized digest auth request.authorization) ∧
    (∀ (request : AdminRequest) (s : σ), authorized digest auth request.authorization = false →
      handleRequest perform digest auth request s = (.envelope 403 "unauthorized" "authorization required", s)) ∧
    (∀ request : AdminRequest, authorized digest auth request.authorization = true →
      config.bind.ip.isLoopback = true ∧ config.authToken = none ∨
      ∃ expected value token, config.authToken = some expected ∧ expected ≠ "" ∧
        request.authorization = some value ∧ bearerToken value = some token ∧
        digest (utf8Bytes token) = digest (utf8Bytes expected)) := by
  obtain ⟨rfl, hsecure⟩ := startAdmin_secure h
  refine ⟨serve_filter digest perform _ s requests, fun request s => (handleRequest_unauthorized digest perform · s), ?_⟩
  intro request hrequest
  rw [authorized_iff] at hrequest
  cases htoken : config.authToken with
  | none =>
    refine .inl ⟨?_, rfl⟩
    cases hloopback : config.bind.ip.isLoopback with
    | true => rfl
    | false =>
      obtain ⟨_, token, hsome, _⟩ := hsecure hloopback
      rw [htoken] at hsome
      cases hsome
  | some expected =>
    obtain ⟨hne, value, token, hvalue, hbearer, hdigest⟩ := hrequest expected htoken
    exact .inr ⟨expected, value, token, rfl, hne, hvalue, hbearer, hdigest⟩

/-- An admin for everybody's network, behind a token. -/
def publicConfig : AdminConfig := ⟨⟨.v4 0 0 0 0, 8475⟩, true, some "secret"⟩

/-- A digest of the first bytes. -/
def firstBytes (bytes : List UInt8) : Vector UInt8 32 := .ofFn fun i => bytes.getD i.val 0

theorem admin_gated_public :
    let counting := fun (_ : NativeRoute) (_ : List UInt8) (n : Nat) => (RouteOutcome.response 200 n, n + 1)
    let reset := fun authorization => AdminRequest.mk "POST" "/v1/reset" authorization (.ok [])
    serve firstBytes counting (some "secret") 0 [reset none, reset (some "Bearer secret")] =
      serve firstBytes counting (some "secret") 0 [reset (some "Bearer secret")] :=
  (admin_gated firstBytes _ (show startAdmin publicConfig .ok = .ok (publicConfig.bind, some "secret") from rfl) 0 _).1

/-! ## The table -/

/-- The operations a request fits are the one it is dispatched to. -/
theorem listed_of_dispatch {method : String} {segments : List String} {r : NativeRoute}
    (h : dispatch method segments = some r) :
    ∃ op, op.operationId = r.operationId ∧
      (nativeOperations.filter fun op => op.method = method && fits op.template segments) = [op] := by
  have hlisted := dispatch_listed method segments
  rw [h, Option.map_some, Option.toList_some] at hlisted
  obtain ⟨op, hfilter, hid⟩ := List.map_eq_singleton_iff.1 hlisted
  exact ⟨op, hid, hfilter⟩

theorem unlisted_of_dispatch {method : String} {segments : List String} (h : dispatch method segments = none) :
    ∀ op ∈ nativeOperations, op.method = method → fits op.template segments = false := by
  have hlisted := dispatch_listed method segments
  rw [h, Option.map_none, Option.toList_none, List.map_eq_nil_iff, List.filter_eq_nil_iff] at hlisted
  intro op hop hmethod
  have hno := hlisted op hop
  simpa [hmethod] using hno

/-- The request is for this operation and no other. -/
def IsFor (op : NativeOperation) (method : String) (segments : List String) : Prop :=
  op ∈ nativeOperations ∧
    ∀ op' ∈ nativeOperations, (op'.method = method ∧ fits op'.template segments = true) ↔ op' = op

theorem isFor_of_dispatch {method : String} {segments : List String} {r : NativeRoute}
    (h : dispatch method segments = some r) : ∃ op, op.operationId = r.operationId ∧ IsFor op method segments := by
  obtain ⟨op, hid, hfilter⟩ := listed_of_dispatch h
  have hmem : ∀ op', op' ∈ nativeOperations ∧ (op'.method = method ∧ fits op'.template segments = true) ↔ op' = op := by
    intro op'
    rw [← List.mem_singleton (b := op), ← hfilter, List.mem_filter]
    simp
  refine ⟨op, hid, ((hmem op).2 rfl).1, fun op' hop' => ?_⟩
  rw [← hmem op']
  simp [hop']

/-- A request that passes the check is given to the operation of the table that it is
for, with the fault id decoded; if it is for none it changes nothing. -/
theorem handleRequest_listed {auth : Option String} {request : AdminRequest}
    (h : authorized digest auth request.authorization = true) {body : List UInt8} (hbody : request.body = .ok body)
    (s : σ) :
    match decodedSegments request.path with
    | none => handleRequest perform digest auth request s = (.envelope 400 "invalid" "invalid path component", s)
    | some segments =>
      (∃ op r, IsFor op request.method segments ∧ dispatch request.method segments = some r ∧
        r.operationId = op.operationId ∧
        handleRequest perform digest auth request s =
          match r.checkId with
          | .error e => (.envelope e.status e.code e.message, s)
          | .ok () => ((perform r body s).1.answer, (perform r body s).2)) ∨
      (∀ op ∈ nativeOperations, op.method = request.method → fits op.template segments = false) ∧
        handleRequest perform digest auth request s = (.envelope 404 "not_found" "route not found", s) := by
  unfold handleRequest
  rw [if_neg (by simp [h])]
  simp only [hbody]
  cases decodedSegments request.path with
  | none => rfl
  | some segments =>
    simp only [route]
    cases hdispatch : dispatch request.method segments with
    | none => exact .inr ⟨unlisted_of_dispatch hdispatch, rfl⟩
    | some r =>
      obtain ⟨op, hid, hfor⟩ := isFor_of_dispatch hdispatch
      refine .inl ⟨op, r, hfor, rfl, hid.symm, ?_⟩
      simp only
      cases r.checkId <;> rfl

/-- Nothing is put at an address that can only be read. -/
theorem handleRequest_listed_put :
    handleRequest (fun _ _ (n : Nat) => (RouteOutcome.response 200 n, n + 1)) firstBytes none
      ⟨"PUT", "/v1/health", none, .ok []⟩ 0 = (.envelope 404 "not_found" "route not found", 0) := by
  have hlisted := handleRequest_listed firstBytes (fun _ _ (n : Nat) => (RouteOutcome.response 200 n, n + 1))
    (show authorized firstBytes none none = true from rfl)
    (show (AdminRequest.mk "PUT" "/v1/health" none (.ok [])).body = .ok [] from rfl) 0
  rw [show decodedSegments "/v1/health" = some ["v1", "health"] by decide] at hlisted
  rcases hlisted with ⟨_, _, _, hdispatch, _⟩ | ⟨_, hanswer⟩
  · cases hdispatch
  · exact hanswer

end

end Eggchaos
