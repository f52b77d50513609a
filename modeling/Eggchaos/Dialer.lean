import Eggchaos.Bidirectional
import Eggchaos.Lib.Accounts
import Eggchaos.Lib.BoundedTable
import Eggchaos.Lib.Checks
import Eggchaos.Lib.Runs
import Mathlib.Data.List.Induction
/-!
# The dialer

`ChaosDialer` wraps the stream that another dialer dialed. The calls of `dial`
share one counter, the two policies and the observer, and between two accesses of
these any other call may run, as may publications.

Every dialed stream gets an ordinal of its own, whatever becomes of it, and every
stream that is handed out has been reported once (`DialerRun.dials_numbered`). Its two
engines are those of the policies at two moments of the call, and unless somebody
publishes under another seed they are seeded with the adapter's run seed
(`DialerRun.dials_compiled`).
-/

namespace Eggchaos
open Lib

/-! ## Keys -/

def initialConnectionOrdinal : UInt64 := 1
def maxIntegrationIdBytes : Nat := 128
def maxKeyErrorBytes : Nat := 256

/-- The longest prefix of at most `n` bytes that ends between two characters. -/
def takeBytes (n : Nat) : List Char → List Char
  | [] => []
  | c :: cs => if c.utf8Size ≤ n then c :: takeBytes (n - c.utf8Size) cs else []

def truncateToBytes (input : String) (maxBytes : Nat) : String := String.ofList (takeBytes maxBytes input.toList)

theorem utf8ByteSize_takeBytes (n : Nat) (cs : List Char) : (String.ofList (takeBytes n cs)).utf8ByteSize ≤ n := by
  induction cs generalizing n with
  | nil => simp [takeBytes]
  | cons c cs ih =>
    unfold takeBytes
    split
    · next hc =>
      have hrest := ih (n - c.utf8Size)
      rw [← List.singleton_append, String.ofList_append, String.utf8ByteSize_append, ← String.singleton_eq_ofList,
        String.utf8ByteSize_singleton]
      omega
    · simp

/-- `KeyError`, whose message is cut to its bound. -/
structure KeyError where
  message : String
  bounded : message.utf8ByteSize ≤ maxKeyErrorBytes

def KeyError.new (message : String) : KeyError :=
  ⟨truncateToBytes message maxKeyErrorBytes, utf8ByteSize_takeBytes _ _⟩

structure DialTarget where
  host : String
  port : UInt16
deriving DecidableEq, Repr

structure ConnectionKeyContext where
  ordinal : UInt64
  target : DialTarget
  integrationId : String
deriving DecidableEq, Repr

abbrev ConnectionKeyProvider := ConnectionKeyContext → Except KeyError UInt64

/-- `DefaultConnectionKeyProvider`: the key is the ordinal. -/
def defaultConnectionKeyProvider : ConnectionKeyProvider := fun ctx => .ok ctx.ordinal

inductive ChaosConfigError where
  | integrationIdTooLong
  | connectTimeoutTooLong
deriving DecidableEq, Repr

/-- What of a `ChaosDialer` its calls only read. -/
structure ChaosDialer where
  proxyName : String
  integrationId : String
  keyProvider : ConnectionKeyProvider
  short : integrationId.utf8ByteSize ≤ maxIntegrationIdBytes

namespace ChaosDialer

/-- `ChaosDialer::wrap_with_policies`; the policies are in `DialerRun.start`. -/
def wrapWithPolicies (proxyName : String) : ChaosDialer := ⟨proxyName, "", defaultConnectionKeyProvider, by decide⟩

def withIntegrationId (d : ChaosDialer) (integrationId : String) : Except ChaosConfigError ChaosDialer :=
  if h : integrationId.utf8ByteSize ≤ maxIntegrationIdBytes then .ok { d with integrationId, short := h }
  else .error .integrationIdTooLong

def withKeyProvider (d : ChaosDialer) (keyProvider : ConnectionKeyProvider) : ChaosDialer := { d with keyProvider }

end ChaosDialer

/-! ## Reports -/

/-- `LiveBidirectionalEvidence`, as it reads when the report is made. -/
structure LiveBidirectionalEvidence where
  connectionKey : UInt64
  proxy : String
  upstream : StreamEvidence
  downstream : StreamEvidence

def BidirectionalChaosStream.liveEvidence {τ : Type} (s : BidirectionalChaosStream τ) : LiveBidirectionalEvidence :=
  ⟨s.connectionKey, s.proxy, s.upstreamEvidence, s.downstreamEvidence⟩

/-- `ConnectionReport`, and the `ConnectionRecord` that has the same fields. -/
structure ConnectionReport where
  ordinal : UInt64
  connectionKey : UInt64
  targetHost : String
  targetPort : UInt16
  integrationId : String
  evidence : LiveBidirectionalEvidence

structure RecordingObserver where
  capacity : Nat
  records : List ConnectionReport

namespace RecordingObserver

def new (capacity : Nat) : RecordingObserver := ⟨capacity, []⟩

/-- `on_connection`: the oldest records make room for the new one. -/
def onConnection (o : RecordingObserver) (report : ConnectionReport) : RecordingObserver :=
  if o.capacity = 0 then o
  else { o with records := o.records.drop (o.records.length + 1 - o.capacity) ++ [report] }

end RecordingObserver

/-! ## Calls -/

inductive DialError (ε : Type) where
  /-- The inner dialer's own, passed on as it is. -/
  | route (e : ε)
  | other (message : String)
deriving DecidableEq, Repr

/-- Where a call of `dial` is: it waits for the inner dialer, then takes an ordinal,
then has the key made and loads the upstream policy, then loads the downstream policy
and builds the stream, then reports it. -/
inductive DialPhase (τ ε : Type) where
  | dialing
  | dialed (inner : τ)
  | numbered (inner : τ) (ordinal : UInt64)
  | keyed (inner : τ) (ordinal key : UInt64) (upstream : LivePolicy)
  | wrapped (ordinal : UInt64) (stream : BidirectionalChaosStream τ)
  | handed (ordinal : UInt64) (stream : BidirectionalChaosStream τ)
  | failed (ordinal : Option UInt64) (e : DialError ε)

structure DialCall (τ ε : Type) where
  target : DialTarget
  phase : DialPhase τ ε

/-- Where a call of `publish_upstream` or `publish_downstream` is: it reads the seed
namespace, then publishes under it. -/
inductive PlanUpdate where
  | reading (direction : Direction) (plan : FaultPlan)
  | publishing (direction : Direction) (plan : FaultPlan) (seedNamespace : UInt64)
  | returned (result : Except ValidationError Nat)

/-- What the calls share, and the calls. `reports` are the calls of the observer. -/
structure DialerRun (τ ε : Type) where
  ordinal : UInt64
  upstream : LivePolicy
  downstream : LivePolicy
  observer : RecordingObserver
  reports : List ConnectionReport
  calls : List (DialCall τ ε)
  updates : List PlanUpdate

inductive DialerOp (τ ε : Type) where
  | dial (target : DialTarget)
  /-- The inner dialer answers. -/
  | answer (i : Nat) (result : Except ε τ)
  | advance (i : Nat) (clock : Clock)
  | update (direction : Direction) (plan : FaultPlan)
  | proceed (j : Nat)
  /-- Somebody publishes through the handle that `upstream_policy` or
  `downstream_policy` gave them. -/
  | publish (direction : Direction) (plan : FaultPlan) (seedNamespace : UInt64)

namespace DialerRun
variable {τ ε : Type}

/-- A dialer whose policies are these, before any call. -/
def start (upstream downstream : LivePolicy) (capacity : Nat) : DialerRun τ ε :=
  ⟨initialConnectionOrdinal, upstream, downstream, .new capacity, [], [], []⟩

def policy (s : DialerRun τ ε) : Direction → LivePolicy
  | .upstream => s.upstream
  | .downstream => s.downstream

def setPolicy (s : DialerRun τ ε) (direction : Direction) (p : LivePolicy) : DialerRun τ ε :=
  match direction with
  | .upstream => { s with upstream := p }
  | .downstream => { s with downstream := p }

def setCall (s : DialerRun τ ε) (i : Nat) (target : DialTarget) (phase : DialPhase τ ε) : DialerRun τ ε :=
  { s with calls := s.calls.set i ⟨target, phase⟩ }

def answer (s : DialerRun τ ε) (i : Nat) (result : Except ε τ) : DialerRun τ ε :=
  match s.calls[i]? with
  | some ⟨target, .dialing⟩ =>
    match result with
    | .error e => s.setCall i target (.failed none (.route e))
    | .ok inner => s.setCall i target (.dialed inner)
  | _ => s

end DialerRun

/-- The report that `wrap_stream` makes of a stream. -/
def ChaosDialer.report {τ : Type} (d : ChaosDialer) (target : DialTarget) (ordinal : UInt64)
    (stream : BidirectionalChaosStream τ) : ConnectionReport :=
  { ordinal
    connectionKey := stream.connectionKey
    targetHost := target.host
    targetPort := target.port
    integrationId := d.integrationId
    evidence := stream.liveEvidence }

namespace DialerRun
variable {τ ε : Type} (d : ChaosDialer)

/-- `wrap_stream`, one access of what is shared after the other. -/
def advance (s : DialerRun τ ε) (i : Nat) (clock : Clock) : DialerRun τ ε :=
  match s.calls[i]? with
  | some ⟨target, .dialed inner⟩ =>
    { s with ordinal := s.ordinal + 1 }.setCall i target (.numbered inner s.ordinal)
  | some ⟨target, .numbered inner ordinal⟩ =>
    match d.keyProvider ⟨ordinal, target, d.integrationId⟩ with
    | .error e => s.setCall i target (.failed (some ordinal) (.other ("connection key provider failed: " ++ e.message)))
    | .ok key => s.setCall i target (.keyed inner ordinal key s.upstream)
  | some ⟨target, .keyed inner ordinal key upstream⟩ =>
    match (BidirectionalChaosStream.newLive inner upstream s.downstream d.proxyName key clock).1 with
    | .error e => s.setCall i target (.failed (some ordinal) (.other e.message))
    | .ok stream => s.setCall i target (.wrapped ordinal stream)
  | some ⟨target, .wrapped ordinal stream⟩ =>
    { s with
      observer := s.observer.onConnection (d.report target ordinal stream)
      reports := s.reports ++ [d.report target ordinal stream] }.setCall i target (.handed ordinal stream)
  | _ => s

def proceed (s : DialerRun τ ε) (j : Nat) : DialerRun τ ε :=
  match s.updates[j]? with
  | some (.reading direction plan) =>
    { s with updates := s.updates.set j (.publishing direction plan (s.policy direction).snapshot.seedNamespace) }
  | some (.publishing direction plan seedNamespace) =>
    let (result, p) := (s.policy direction).publish plan seedNamespace
    { s.setPolicy direction p with updates := s.updates.set j (.returned (result.map (·.generation))) }
  | _ => s

def step (s : DialerRun τ ε) : DialerOp τ ε → DialerRun τ ε
  | .dial target => { s with calls := s.calls ++ [⟨target, .dialing⟩] }
  | .answer i result => s.answer i result
  | .advance i clock => s.advance d i clock
  | .update direction plan => { s with updates := s.updates ++ [.reading direction plan] }
  | .proceed j => s.proceed j
  | .publish direction plan seedNamespace => s.setPolicy direction ((s.policy direction).publish plan seedNamespace).2

end DialerRun

/-! ## Ordinals and reports -/

variable {τ ε : Type}

def DialCall.ordinal? (call : DialCall τ ε) : Option UInt64 :=
  match call.phase with
  | .dialing | .dialed _ => none
  | .numbered _ ordinal | .keyed _ ordinal _ _ | .wrapped ordinal _ | .handed ordinal _ => some ordinal
  | .failed ordinal _ => ordinal

/-- The report of a call that handed its stream out. -/
def DialCall.report? (d : ChaosDialer) (call : DialCall τ ε) : Option ConnectionReport :=
  match call.phase with
  | .handed ordinal stream => some (d.report call.target ordinal stream)
  | .dialing | .dialed _ | .numbered .. | .keyed .. | .wrapped .. | .failed .. => none

namespace RecordingObserver

theorem capacity_onConnection (o : RecordingObserver) (report : ConnectionReport) :
    (o.onConnection report).capacity = o.capacity := by
  unfold onConnection
  split <;> rfl

theorem records_onConnection {o : RecordingObserver} {reports : List ConnectionReport}
    (h : o.records = lastOf o.capacity reports) (report : ConnectionReport) :
    (o.onConnection report).records = lastOf o.capacity (reports ++ [report]) := by
  unfold onConnection
  split
  · next hzero => rw [h, hzero, lastOf_zero, lastOf_zero]
  · next hzero =>
    simp only [h]
    exact lastOf_concat hzero reports report

end RecordingObserver

namespace DialerRun
variable (d : ChaosDialer)

/-- The ordinal that the stream after `k` others gets. -/
def nthOrdinal (k : Nat) : UInt64 := initialConnectionOrdinal + UInt64.ofNat k

theorem nthOrdinal_succ (k : Nat) : nthOrdinal (k + 1) = nthOrdinal k + 1 := by
  rw [nthOrdinal, nthOrdinal, UInt64.ofNat_add, ← UInt64.add_assoc]
  rfl

/-- The ordinals taken, whoever took them. -/
def ordinals (s : DialerRun τ ε) : List UInt64 := s.calls.filterMap DialCall.ordinal?

structure Numbered (capacity : Nat) (s : DialerRun τ ε) : Prop where
  next : s.ordinal = nthOrdinal s.ordinals.length
  taken : s.ordinals.Perm ((List.range s.ordinals.length).map nthOrdinal)
  reported : s.reports.Perm (s.calls.filterMap (DialCall.report? d))
  kept : s.observer.capacity = capacity ∧ s.observer.records = lastOf capacity s.reports

variable {d} {capacity : Nat} {s : DialerRun τ ε}

theorem numbered_start (upstream downstream : LivePolicy) :
    Numbered d capacity (start upstream downstream capacity : DialerRun τ ε) := by
  constructor <;> simp [start, ordinals, RecordingObserver.new, lastOf, nthOrdinal]

/-- A call that goes on without taking an ordinal or handing its stream out. -/
theorem Numbered.setCall (h : Numbered d capacity s) {i : Nat} {target : DialTarget} {phase phase' : DialPhase τ ε}
    (hi : s.calls[i]? = some ⟨target, phase⟩)
    (hordinal : DialCall.ordinal? ⟨target, phase'⟩ = DialCall.ordinal? ⟨target, phase⟩)
    (hreport : DialCall.report? d ⟨target, phase'⟩ = DialCall.report? d ⟨target, phase⟩) :
    Numbered d capacity (s.setCall i target phase') := by
  have hords : (s.setCall i target phase').ordinals = s.ordinals := Accounts.filterMap_set_same hi hordinal
  have hreports : (s.setCall i target phase').calls.filterMap (DialCall.report? d) =
      s.calls.filterMap (DialCall.report? d) := Accounts.filterMap_set_same hi hreport
  refine ⟨?_, ?_, ?_, h.kept⟩
  · rw [hords]
    exact h.next
  · rw [hords]
    exact h.taken
  · rw [hreports]
    exact h.reported

theorem Numbered.answer (h : Numbered d capacity s) (i : Nat) (result : Except ε τ) :
    Numbered d capacity (s.answer i result) := by
  unfold DialerRun.answer
  split
  · next target hi =>
    cases result with
    | error e => exact h.setCall hi rfl rfl
    | ok inner => exact h.setCall hi rfl rfl
  · exact h

theorem Numbered.take (h : Numbered d capacity s) {i : Nat} {target : DialTarget} {inner : τ}
    (hi : s.calls[i]? = some ⟨target, .dialed inner⟩) :
    Numbered d capacity ({ s with ordinal := s.ordinal + 1 }.setCall i target (.numbered inner s.ordinal)) := by
  have hperm : ({ s with ordinal := s.ordinal + 1 }.setCall i target (.numbered inner s.ordinal)).ordinals.Perm
      (s.ordinals ++ [s.ordinal]) := Accounts.filterMap_set_perm hi rfl rfl
  have hlen := hperm.length_eq
  rw [List.length_append, List.length_singleton] at hlen
  refine ⟨?_, ?_, ?_, h.kept⟩
  · rw [hlen, nthOrdinal_succ, ← h.next]
    rfl
  · rw [hlen, List.range_succ, List.map_append, List.map_singleton, ← h.next]
    exact hperm.trans (h.taken.append_right _)
  · have hreports : (s.calls.set i ⟨target, .numbered inner s.ordinal⟩).filterMap (DialCall.report? d) =
        s.calls.filterMap (DialCall.report? d) := Accounts.filterMap_set_same hi rfl
    exact h.reported.trans (.of_eq hreports.symm)

theorem Numbered.hand (h : Numbered d capacity s) {i : Nat} {target : DialTarget} {ordinal : UInt64}
    {stream : BidirectionalChaosStream τ} (hi : s.calls[i]? = some ⟨target, .wrapped ordinal stream⟩) :
    Numbered d capacity ({ s with
      observer := s.observer.onConnection (d.report target ordinal stream)
      reports := s.reports ++ [d.report target ordinal stream] }.setCall i target (.handed ordinal stream)) := by
  obtain ⟨hcapacity, hrecords⟩ := h.kept
  have hords : (s.calls.set i ⟨target, .handed ordinal stream⟩).filterMap DialCall.ordinal? = s.ordinals :=
    Accounts.filterMap_set_same hi rfl
  refine ⟨?_, ?_, ?_, ?_, ?_⟩
  · exact h.next.trans (congrArg (fun l => nthOrdinal l.length) hords.symm)
  · simp only [DialerRun.setCall, ordinals, hords]
    exact h.taken
  · have hreports : ((s.calls.set i ⟨target, .handed ordinal stream⟩).filterMap (DialCall.report? d)).Perm
        (s.calls.filterMap (DialCall.report? d) ++ [d.report target ordinal stream]) :=
      Accounts.filterMap_set_perm hi rfl rfl
    exact (h.reported.append_right _).trans hreports.symm
  · exact (RecordingObserver.capacity_onConnection _ _).trans hcapacity
  · subst hcapacity
    exact RecordingObserver.records_onConnection hrecords _

theorem Numbered.advance (h : Numbered d capacity s) (i : Nat) (clock : Clock) :
    Numbered d capacity (s.advance d i clock) := by
  unfold DialerRun.advance
  split
  · next target inner hi => exact h.take hi
  · next target inner ordinal hi => split <;> exact h.setCall hi rfl rfl
  · next target inner ordinal key upstream hi => split <;> exact h.setCall hi rfl rfl
  · next target ordinal stream hi => exact h.hand hi
  · exact h

theorem Numbered.setPolicy (h : Numbered d capacity s) (direction : Direction) (p : LivePolicy) :
    Numbered d capacity (s.setPolicy direction p) := by
  cases direction <;> exact ⟨h.next, h.taken, h.reported, h.kept⟩

theorem Numbered.step (h : Numbered d capacity s) (o : DialerOp τ ε) : Numbered d capacity (s.step d o) := by
  cases o with
  | answer i result => exact h.answer i result
  | advance i clock => exact h.advance i clock
  | update direction plan => exact ⟨h.next, h.taken, h.reported, h.kept⟩
  | publish direction plan seedNamespace => exact h.setPolicy _ _
  | dial target =>
    have hords : (s.step d (.dial target)).ordinals = s.ordinals := by
      simp [ordinals, DialerRun.step, DialCall.ordinal?]
    have hreports : (s.step d (.dial target)).calls.filterMap (DialCall.report? d) =
        s.calls.filterMap (DialCall.report? d) := by
      simp [DialerRun.step, DialCall.report?]
    refine ⟨?_, ?_, ?_, h.kept⟩
    · rw [hords]
      exact h.next
    · rw [hords]
      exact h.taken
    · rw [hreports]
      exact h.reported
  | proceed j =>
    simp only [DialerRun.step, DialerRun.proceed]
    split
    · exact ⟨h.next, h.taken, h.reported, h.kept⟩
    · next direction plan seedNamespace _ =>
      have hkeep := h.setPolicy direction ((s.policy direction).publish plan seedNamespace).2
      exact ⟨hkeep.next, hkeep.taken, hkeep.reported, hkeep.kept⟩
    · exact h

/-! ## What a call has come to -/

/-- The step that a call takes on an operation. -/
inductive Moves (d : ChaosDialer) (s : DialerRun τ ε) (i : Nat) (target : DialTarget) :
    DialerOp τ ε → DialPhase τ ε → DialPhase τ ε → Prop where
  | refused (e : ε) : Moves d s i target (.answer i (.error e)) .dialing (.failed none (.route e))
  | connected (inner : τ) : Moves d s i target (.answer i (.ok inner)) .dialing (.dialed inner)
  | number (inner : τ) (clock : Clock) :
      Moves d s i target (.advance i clock) (.dialed inner) (.numbered inner s.ordinal)
  | unkeyed {inner : τ} {ordinal : UInt64} {e : KeyError} (clock : Clock)
      (hkey : d.keyProvider ⟨ordinal, target, d.integrationId⟩ = .error e) :
      Moves d s i target (.advance i clock) (.numbered inner ordinal)
        (.failed (some ordinal) (.other ("connection key provider failed: " ++ e.message)))
  | key {inner : τ} {ordinal key : UInt64} (clock : Clock)
      (hkey : d.keyProvider ⟨ordinal, target, d.integrationId⟩ = .ok key) :
      Moves d s i target (.advance i clock) (.numbered inner ordinal) (.keyed inner ordinal key s.upstream)
  | wrap {inner : τ} {ordinal key : UInt64} {upstream : LivePolicy} {clock : Clock}
      {stream : BidirectionalChaosStream τ}
      (hnew : (BidirectionalChaosStream.newLive inner upstream s.downstream d.proxyName key clock).1 = .ok stream) :
      Moves d s i target (.advance i clock) (.keyed inner ordinal key upstream) (.wrapped ordinal stream)
  | hand (ordinal : UInt64) (stream : BidirectionalChaosStream τ) (clock : Clock) :
      Moves d s i target (.advance i clock) (.wrapped ordinal stream) (.handed ordinal stream)

end DialerRun

/-- Policies have passed validation, so wrapping a stream in them cannot fail. -/
theorem BidirectionalChaosStream.newLive_ok (inner : τ) (upstream downstream : LivePolicy) (proxy : String)
    (key : UInt64) (c : Clock) :
    ∃ stream, (newLive inner upstream downstream proxy key c).1 = .ok stream ∧
      stream.inner = inner ∧ stream.connectionKey = key ∧
      stream.upstream = DirectionEngine.compile upstream.snapshot.plan
        ⟨upstream.snapshot.seedNamespace, proxy, key, .upstream⟩ .new c.now ∧
      stream.downstream = DirectionEngine.compile downstream.snapshot.plan
        ⟨downstream.snapshot.seedNamespace, proxy, key, .downstream⟩ .new c.tick.now := by
  simp only [newLive, DirectionEngine.newWithArcPlan, upstream.snapshot.valid, downstream.snapshot.valid]
  exact ⟨_, rfl, rfl, rfl, rfl, rfl⟩

namespace DialerRun
variable {d : ChaosDialer} {s : DialerRun τ ε}

/-- A call after one of them has moved is as it was, or the one that has. -/
theorem setCall_cases {s' : DialerRun τ ε} (hcalls : s'.calls = s.calls) {o : DialerOp τ ε} {j : Nat}
    {target' : DialTarget} {phase₀ phase' : DialPhase τ ε} (hj : s.calls[j]? = some ⟨target', phase₀⟩)
    (hmove : Moves d s j target' o phase₀ phase') {i : Nat} {target : DialTarget} {phase : DialPhase τ ε}
    (h : (s'.setCall j target' phase').calls[i]? = some ⟨target, phase⟩) :
    s.calls[i]? = some ⟨target, phase⟩ ∨ phase = .dialing ∨
      ∃ phase₀, s.calls[i]? = some ⟨target, phase₀⟩ ∧ Moves d s i target o phase₀ phase := by
  simp only [setCall, hcalls, List.getElem?_set] at h
  split at h
  · next hij =>
    subst hij
    split at h
    · cases h
      exact .inr (.inr ⟨phase₀, hj, hmove⟩)
    · cases h
  · exact .inl h

/-- A call after a step is as it was, or new, or has moved. -/
theorem step_cases {o : DialerOp τ ε} {i : Nat} {target : DialTarget} {phase : DialPhase τ ε}
    (h : (s.step d o).calls[i]? = some ⟨target, phase⟩) :
    s.calls[i]? = some ⟨target, phase⟩ ∨ phase = .dialing ∨
      ∃ phase₀, s.calls[i]? = some ⟨target, phase₀⟩ ∧ Moves d s i target o phase₀ phase := by
  cases o with
  | update direction plan => exact .inl h
  | publish direction plan seedNamespace => cases direction <;> exact .inl h
  | dial target' =>
    simp only [step, List.getElem?_append] at h
    split at h
    · exact .inl h
    · obtain ⟨hlt, hcall⟩ := List.getElem?_eq_some_iff.1 h
      rw [List.getElem_singleton] at hcall
      exact .inr (.inl (DialCall.mk.inj hcall).2.symm)
  | proceed j =>
    simp only [step, proceed] at h
    split at h
    · exact .inl h
    · next direction _ _ _ => cases direction <;> exact .inl h
    · exact .inl h
  | answer j result =>
    simp only [step, answer] at h
    split at h
    · next target' hj =>
      cases result with
      | error e => exact setCall_cases rfl hj (.refused e) h
      | ok inner => exact setCall_cases rfl hj (.connected inner) h
    · exact .inl h
  | advance j clock =>
    simp only [step, advance] at h
    split at h
    · next target' inner hj => exact setCall_cases rfl hj (.number inner clock) h
    · next target' inner ordinal hj =>
      split at h
      · next e hkey => exact setCall_cases rfl hj (.unkeyed clock hkey) h
      · next key hkey => exact setCall_cases rfl hj (.key clock hkey) h
    · next target' inner ordinal key upstream hj =>
      obtain ⟨stream, hok, -⟩ := BidirectionalChaosStream.newLive_ok inner upstream s.downstream d.proxyName key clock
      simp only [hok] at h
      exact setCall_cases rfl hj (.wrap hok) h
    · next target' ordinal stream hj => exact setCall_cases rfl hj (.hand ordinal stream clock) h
    · exact .inl h

/-- What the run tells of a call: which answer of the inner dialer it goes back to, and
from which moments of the run its key, its policies and its error come. -/
def Traced (d : ChaosDialer) (s : DialerRun τ ε) (ops : List (DialerOp τ ε)) (i : Nat) (target : DialTarget) :
    DialPhase τ ε → Prop
  | .dialing => True
  | .dialed inner | .numbered inner _ => .answer i (.ok inner) ∈ ops
  | .keyed inner ordinal key upstream =>
    d.keyProvider ⟨ordinal, target, d.integrationId⟩ = .ok key ∧ .answer i (.ok inner) ∈ ops ∧
      ∃ pre, pre <+: ops ∧ (run (step d) s pre).calls[i]? = some ⟨target, .numbered inner ordinal⟩ ∧
        (run (step d) s pre).upstream = upstream
  | .wrapped ordinal stream | .handed ordinal stream =>
    d.keyProvider ⟨ordinal, target, d.integrationId⟩ = .ok stream.connectionKey ∧
      .answer i (.ok stream.inner) ∈ ops ∧
      ∃ pre pre' clock, pre <+: pre' ∧ pre' <+: ops ∧
        (run (step d) s pre).calls[i]? = some ⟨target, .numbered stream.inner ordinal⟩ ∧
        (BidirectionalChaosStream.newLive stream.inner (run (step d) s pre).upstream (run (step d) s pre').downstream
          d.proxyName stream.connectionKey clock).1 = .ok stream
  | .failed none e => ∃ routeError, e = .route routeError ∧ .answer i (.error routeError) ∈ ops
  | .failed (some ordinal) e =>
    ∃ keyError, d.keyProvider ⟨ordinal, target, d.integrationId⟩ = .error keyError ∧
      e = .other ("connection key provider failed: " ++ keyError.message)

theorem Traced.append {ops : List (DialerOp τ ε)} {i : Nat} {target : DialTarget} {phase : DialPhase τ ε}
    (h : Traced d s ops i target phase) (o : DialerOp τ ε) : Traced d s (ops ++ [o]) i target phase := by
  have hmem : ∀ {o' : DialerOp τ ε}, o' ∈ ops → o' ∈ ops ++ [o] := List.mem_append_left _
  have hprefix : ∀ {pre : List (DialerOp τ ε)}, pre <+: ops → pre <+: ops ++ [o] :=
    fun hpre => hpre.trans (List.prefix_append _ _)
  cases phase with
  | dialing => trivial
  | dialed inner => exact hmem h
  | numbered inner ordinal => exact hmem h
  | keyed inner ordinal key upstream =>
    obtain ⟨hkey, hinner, pre, hpre, hrest⟩ := h
    exact ⟨hkey, hmem hinner, pre, hprefix hpre, hrest⟩
  | wrapped ordinal stream =>
    obtain ⟨hkey, hinner, pre, pre', clock, hle, hpre, hrest⟩ := h
    exact ⟨hkey, hmem hinner, pre, pre', clock, hle, hprefix hpre, hrest⟩
  | handed ordinal stream =>
    obtain ⟨hkey, hinner, pre, pre', clock, hle, hpre, hrest⟩ := h
    exact ⟨hkey, hmem hinner, pre, pre', clock, hle, hprefix hpre, hrest⟩
  | failed ordinal e =>
    cases ordinal with
    | none =>
      obtain ⟨routeError, he, hanswer⟩ := h
      exact ⟨routeError, he, hmem hanswer⟩
    | some ordinal => exact h

/-- A call is traced when it has moved, if it was before. -/
theorem Traced.moves {ops : List (DialerOp τ ε)} {i : Nat} {target : DialTarget} {o : DialerOp τ ε}
    {phase phase' : DialPhase τ ε} (h : Traced d s ops i target phase)
    (hi : (run (step d) s ops).calls[i]? = some ⟨target, phase⟩)
    (hmove : Moves d (run (step d) s ops) i target o phase phase') : Traced d s (ops ++ [o]) i target phase' := by
  have hlast : o ∈ ops ++ [o] := by simp
  cases hmove with
  | refused e => exact ⟨e, rfl, hlast⟩
  | connected inner => exact hlast
  | number inner clock => exact List.mem_append_left _ h
  | unkeyed clock hkey => exact ⟨_, hkey, rfl⟩
  | key clock hkey => exact ⟨hkey, List.mem_append_left _ h, ops, List.prefix_append _ _, hi, rfl⟩
  | hand ordinal stream clock =>
    have hwrapped : Traced d s ops i target (.wrapped ordinal stream) := h
    exact hwrapped.append _
  | @wrap inner ordinal key upstream clock stream hnew =>
    obtain ⟨hkey, hinner, pre, hpre, hnumbered, rfl⟩ := h
    obtain ⟨stream', hok, hstream, hconnection, -⟩ := BidirectionalChaosStream.newLive_ok inner
      (run (step d) s pre).upstream (run (step d) s ops).downstream d.proxyName key clock
    obtain rfl : stream' = stream := by
      rw [hok] at hnew
      exact Except.ok.inj hnew
    subst hstream hconnection
    exact ⟨hkey, List.mem_append_left _ hinner, pre, ops, clock, hpre, List.prefix_append _ _, hnumbered, hok⟩

/-- Every call is traced, at every moment of every run. -/
theorem traced_run (hempty : s.calls = []) (ops : List (DialerOp τ ε)) {i : Nat} {target : DialTarget}
    {phase : DialPhase τ ε} (h : (run (step d) s ops).calls[i]? = some ⟨target, phase⟩) :
    Traced d s ops i target phase := by
  induction ops using List.reverseRecOn generalizing phase with
  | nil =>
    rw [run_nil, hempty] at h
    cases h
  | append_singleton ops o ih =>
    rw [run_append] at h
    rcases step_cases h with hsame | rfl | ⟨phase₀, hi, hmove⟩
    · exact (ih hsame).append o
    · trivial
    · exact (ih hi).moves hi hmove

end DialerRun

/-! ## Seeds -/

theorem LivePolicy.publish_cases (p : LivePolicy) (plan : FaultPlan) (seedNamespace : UInt64) :
    (p.publish plan seedNamespace).2 = p ∨
      (p.publish plan seedNamespace).2.snapshot.plan = plan ∧
        (p.publish plan seedNamespace).2.snapshot.seedNamespace = seedNamespace := by
  unfold publish
  split
  · exact .inl rfl
  · unfold swap
    split
    · exact .inl rfl
    · exact .inr ⟨rfl, rfl⟩

namespace DialerRun
variable {d : ChaosDialer} {s : DialerRun τ ε} {seed : UInt64} {plans : Direction → FaultPlan}

/-- The plan is the first of its direction, or one that an update or a publication brought. -/
def Offered (plans : Direction → FaultPlan) (ops : List (DialerOp τ ε)) (direction : Direction) (plan : FaultPlan) :
    Prop :=
  plan = plans direction ∨ .update direction plan ∈ ops ∨
    ∃ seedNamespace, .publish direction plan seedNamespace ∈ ops

/-- What an update that is not over will publish. -/
def PlanUpdate.Keeps (seed : UInt64) (ops : List (DialerOp τ ε)) : PlanUpdate → Prop
  | .reading direction plan => .update direction plan ∈ ops
  | .publishing direction plan seedNamespace => .update direction plan ∈ ops ∧ seedNamespace = seed
  | .returned _ => True

structure Seeded (seed : UInt64) (plans : Direction → FaultPlan) (ops : List (DialerOp τ ε)) (s : DialerRun τ ε) :
    Prop where
  seeds : ∀ direction, (s.policy direction).snapshot.seedNamespace = seed
  offered : ∀ direction, Offered plans ops direction (s.policy direction).snapshot.plan
  updates : ∀ u ∈ s.updates, PlanUpdate.Keeps seed ops u

theorem Offered.mono {ops ops' : List (DialerOp τ ε)} {direction : Direction} {plan : FaultPlan}
    (h : Offered plans ops direction plan) (hsub : ops ⊆ ops') : Offered plans ops' direction plan := by
  rcases h with rfl | hupdate | ⟨seedNamespace, hpublish⟩
  · exact .inl rfl
  · exact .inr (.inl (hsub hupdate))
  · exact .inr (.inr ⟨seedNamespace, hsub hpublish⟩)

theorem PlanUpdate.Keeps.append {ops : List (DialerOp τ ε)} {u : PlanUpdate} (h : Keeps seed ops u) (o : DialerOp τ ε) :
    Keeps seed (ops ++ [o]) u := by
  cases u with
  | reading direction plan => exact List.mem_append_left _ h
  | publishing direction plan seedNamespace => exact ⟨List.mem_append_left _ h.1, h.2⟩
  | returned result => trivial

theorem Seeded.append {ops : List (DialerOp τ ε)} (h : Seeded seed plans ops s) (o : DialerOp τ ε) :
    Seeded seed plans (ops ++ [o]) s :=
  ⟨h.seeds, fun direction => (h.offered direction).mono (List.subset_append_left _ _),
    fun u hu => (h.updates u hu).append o⟩

/-- The policies and the updates are all that matters. -/
theorem Seeded.of_eq {ops : List (DialerOp τ ε)} {s' : DialerRun τ ε} (h : Seeded seed plans ops s)
    (hpolicy : s'.policy = s.policy) (hupdates : s'.updates = s.updates) : Seeded seed plans ops s' :=
  ⟨by rw [hpolicy]; exact h.seeds, by rw [hpolicy]; exact h.offered, by rw [hupdates]; exact h.updates⟩

@[simp] theorem policy_setPolicy (direction direction' : Direction) (p : LivePolicy) :
    (s.setPolicy direction p).policy direction' = if direction' = direction then p else s.policy direction' := by
  cases direction <;> cases direction' <;> rfl

@[simp] theorem updates_setPolicy (direction : Direction) (p : LivePolicy) :
    (s.setPolicy direction p).updates = s.updates := by
  cases direction <;> rfl

/-- A publication under the seed. -/
theorem Seeded.publish {ops : List (DialerOp τ ε)} (h : Seeded seed plans ops s) {direction : Direction}
    {plan : FaultPlan} (hoffered : Offered plans ops direction plan) :
    Seeded seed plans ops (s.setPolicy direction ((s.policy direction).publish plan seed).2) := by
  have hcases := (s.policy direction).publish_cases plan seed
  refine ⟨fun direction' => ?_, fun direction' => ?_, ?_⟩
  · rw [policy_setPolicy]
    split
    · rcases hcases with hsame | ⟨-, hnew⟩
      · rw [hsame]
        exact h.seeds direction
      · exact hnew
    · exact h.seeds direction'
  · rw [policy_setPolicy]
    split
    · next heq =>
      subst heq
      rcases hcases with hsame | ⟨hnew, -⟩
      · rw [hsame]
        exact h.offered direction'
      · rw [hnew]
        exact hoffered
    · exact h.offered direction'
  · rw [updates_setPolicy]
    exact h.updates

theorem Seeded.proceed {ops : List (DialerOp τ ε)} (h : Seeded seed plans ops s) (j : Nat) :
    Seeded seed plans ops (s.proceed j) := by
  have hset : ∀ u' : PlanUpdate, PlanUpdate.Keeps seed ops u' →
      ∀ u ∈ s.updates.set j u', PlanUpdate.Keeps seed ops u := by
    intro u' hu' u hu
    rcases List.mem_or_eq_of_mem_set hu with hu | rfl
    · exact h.updates u hu
    · exact hu'
  unfold DialerRun.proceed
  split
  · next direction plan hj =>
    have hkeeps : PlanUpdate.Keeps seed ops (.reading direction plan) := h.updates _ (List.mem_of_getElem? hj)
    have hkept : PlanUpdate.Keeps seed ops (.publishing direction plan (s.policy direction).snapshot.seedNamespace) :=
      ⟨hkeeps, h.seeds direction⟩
    exact ⟨h.seeds, h.offered, hset _ hkept⟩
  · next direction plan seedNamespace hj =>
    obtain ⟨hupdate, rfl⟩ : PlanUpdate.Keeps seed ops (.publishing direction plan seedNamespace) :=
      h.updates _ (List.mem_of_getElem? hj)
    have hoffered : Offered plans ops direction plan := .inr (.inl hupdate)
    have hpublished := h.publish hoffered
    exact ⟨hpublished.seeds, hpublished.offered, hset _ trivial⟩
  · exact h

/-- As long as nobody publishes under another seed, the seed stays. -/
theorem Seeded.step {ops : List (DialerOp τ ε)} (h : Seeded seed plans ops s) {o : DialerOp τ ε}
    (hown : ∀ direction plan seedNamespace, o = .publish direction plan seedNamespace → seedNamespace = seed) :
    Seeded seed plans (ops ++ [o]) (s.step d o) := by
  cases o with
  | dial target => exact (h.append _).of_eq rfl rfl
  | proceed j => exact (h.append _).proceed j
  | publish direction plan seedNamespace =>
    obtain rfl := hown direction plan seedNamespace rfl
    exact (h.append _).publish (.inr (.inr ⟨_, List.mem_append_right _ (List.mem_singleton_self _)⟩))
  | update direction plan =>
    refine ⟨h.seeds, (h.append _).offered, ?_⟩
    intro u hu
    rcases List.mem_append.1 hu with hu | hu
    · exact (h.updates u hu).append _
    · rw [List.mem_singleton.1 hu]
      exact List.mem_append_right _ (List.mem_singleton_self _)
  | answer i result =>
    refine (h.append _).of_eq ?_ ?_ <;> simp only [DialerRun.step, DialerRun.answer] <;> split <;>
      first | rfl | (cases result <;> rfl)
  | advance i clock =>
    refine (h.append _).of_eq ?_ ?_ <;> simp only [DialerRun.step, DialerRun.advance] <;> split <;>
      first | rfl | (split <;> rfl)

theorem seeded_run (h : Seeded seed plans [] s) (ops : List (DialerOp τ ε))
    (hown : ∀ direction plan seedNamespace, .publish direction plan seedNamespace ∈ ops → seedNamespace = seed) :
    Seeded seed plans ops (run (step d) s ops) := by
  induction ops using List.reverseRecOn with
  | nil => exact h
  | append_singleton ops o ih =>
    rw [run_append]
    refine (ih fun direction plan seedNamespace hmem => ?_).step ?_
    · exact hown direction plan seedNamespace (List.mem_append_left _ hmem)
    · rintro direction plan seedNamespace rfl
      exact hown direction plan seedNamespace (List.mem_append_right _ (List.mem_singleton_self _))

/-! ## Every run -/

theorem nthOrdinal_inj {k l : Nat} (hk : k < 2 ^ 64) (hl : l < 2 ^ 64) (h : nthOrdinal k = nthOrdinal l) : k = l := by
  have hofNat : UInt64.ofNat k = UInt64.ofNat l := (UInt64.add_right_inj _).1 h
  have htoNat := congrArg UInt64.toNat hofNat
  rwa [UInt64.toNat_ofNat_of_lt' hk, UInt64.toNat_ofNat_of_lt' hl] at htoNat

/-- The ordinals taken are the first ones, each once, and the observer has seen each
stream that was handed out, once; it keeps the latest of what it saw. -/
theorem dials_numbered (d : ChaosDialer) (upstream downstream : LivePolicy) (capacity : Nat)
    (ops : List (DialerOp τ ε)) :
    let s := run (step d) (start upstream downstream capacity) ops
    s.ordinals.Perm ((List.range s.ordinals.length).map nthOrdinal) ∧
    (s.ordinals.length ≤ 2 ^ 64 → s.ordinals.Nodup) ∧
    s.reports.Perm (s.calls.filterMap (DialCall.report? d)) ∧
    s.observer.records = lastOf capacity s.reports := by
  have h : Numbered d capacity (run (step d) (start upstream downstream capacity) ops) :=
    run_inv (Numbered d capacity) (fun _ o h => h.step o) (numbered_start upstream downstream) ops
  refine ⟨h.taken, fun hfew => ?_, h.reported, h.kept.2⟩
  refine h.taken.nodup_iff.2 (List.Nodup.map_on ?_ List.nodup_range)
  intro k hk l hl
  exact nthOrdinal_inj ((List.mem_range.1 hk).trans_le hfew) ((List.mem_range.1 hl).trans_le hfew)

/-- The plans of a dialer's first policies. -/
def firstPlans (upstream downstream : LivePolicy) : Direction → FaultPlan
  | .upstream => upstream.snapshot.plan
  | .downstream => downstream.snapshot.plan

/-- The engines of a stream are those of its key, of the adapter's name and seed, and
of plans that the adapter had. -/
structure EnginesOf (d : ChaosDialer) (seed : UInt64) (plans : Direction → FaultPlan) (ops : List (DialerOp τ ε))
    (stream : BidirectionalChaosStream τ) : Prop where
  upstream : ∃ plan t, Offered plans ops .upstream plan ∧
    stream.upstream = .compile plan ⟨seed, d.proxyName, stream.connectionKey, .upstream⟩ .new t
  downstream : ∃ plan t, Offered plans ops .downstream plan ∧
    stream.downstream = .compile plan ⟨seed, d.proxyName, stream.connectionKey, .downstream⟩ .new t

theorem enginesOf_handed {upstream downstream : LivePolicy} {capacity : Nat} {ops : List (DialerOp τ ε)}
    (hup : upstream.snapshot.seedNamespace = seed) (hdown : downstream.snapshot.seedNamespace = seed)
    (hown : ∀ direction plan seedNamespace, .publish direction plan seedNamespace ∈ ops → seedNamespace = seed) {i : Nat}
    {target : DialTarget} {ordinal : UInt64} {stream : BidirectionalChaosStream τ}
    (h : (run (step d) (start upstream downstream capacity) ops).calls[i]? = some ⟨target, .handed ordinal stream⟩) :
    EnginesOf d seed (firstPlans upstream downstream) ops stream := by
  obtain ⟨-, -, pre, pre', clock, hle, hpre, -, hnew⟩ := traced_run rfl ops h
  have hstart : Seeded seed (firstPlans upstream downstream) []
      (start upstream downstream capacity : DialerRun τ ε) := by
    refine ⟨?_, ?_, by simp [start]⟩
    · rintro (_ | _)
      · exact hup
      · exact hdown
    · rintro (_ | _) <;> exact .inl rfl
  have hat : ∀ pre, pre <+: ops → Seeded seed (firstPlans upstream downstream) pre
      (run (step d) (start upstream downstream capacity) pre) := fun pre hpre =>
    seeded_run hstart pre fun direction plan seedNamespace hmem => hown direction plan seedNamespace (hpre.subset hmem)
  have hfirst := hat pre (hle.trans hpre)
  have hsecond := hat pre' hpre
  obtain ⟨stream', hok, -, -, hupstream, hdownstream⟩ := BidirectionalChaosStream.newLive_ok stream.inner
    (run (step d) (start upstream downstream capacity) pre).upstream
    (run (step d) (start upstream downstream capacity) pre').downstream d.proxyName stream.connectionKey clock
  obtain rfl : stream' = stream := by
    rw [hok] at hnew
    exact Except.ok.inj hnew
  have hupSeed := hfirst.seeds .upstream
  have hdownSeed := hsecond.seeds .downstream
  simp only [policy] at hupSeed hdownSeed
  rw [hupSeed] at hupstream
  rw [hdownSeed] at hdownstream
  refine ⟨⟨_, _, ?_, hupstream⟩, ⟨_, _, ?_, hdownstream⟩⟩
  · exact (hfirst.offered .upstream).mono (hle.trans hpre).subset
  · exact (hsecond.offered .downstream).mono hpre.subset

/-- Where the streams, the engines and the errors of the calls come from, whatever ran
beside them. -/
theorem dials_compiled (d : ChaosDialer) (upstream downstream : LivePolicy) (capacity : Nat)
    (ops : List (DialerOp τ ε)) :
    let s₀ : DialerRun τ ε := start upstream downstream capacity
    (∀ (i : Nat) (target : DialTarget) (phase : DialPhase τ ε),
      (run (step d) s₀ ops).calls[i]? = some ⟨target, phase⟩ → Traced d s₀ ops i target phase) ∧
    ∀ seed, upstream.snapshot.seedNamespace = seed → downstream.snapshot.seedNamespace = seed →
      (∀ direction plan seedNamespace, .publish direction plan seedNamespace ∈ ops → seedNamespace = seed) →
      ∀ (i : Nat) (target : DialTarget) (ordinal : UInt64) (stream : BidirectionalChaosStream τ),
        (run (step d) s₀ ops).calls[i]? = some ⟨target, .handed ordinal stream⟩ →
          EnginesOf d seed (firstPlans upstream downstream) ops stream :=
  ⟨fun _ _ _ h => traced_run rfl ops h, fun _ hup hdown hown _ _ _ _ h => enginesOf_handed hup hdown hown h⟩

end DialerRun

/-! ## The direct dialer -/

/-- What connecting to a resolved address comes to, and after how long. -/
structure Attempt (τ ε : Type) where
  elapsed : Nat
  result : Except ε τ
deriving DecidableEq, Repr

/-- What `lookup_host` answers, and after how long. -/
structure Lookup (τ ε : Type) where
  elapsed : Nat
  result : Except ε (List (Attempt τ ε))
deriving DecidableEq, Repr

/-- The `io::Error` that a direct dialer's error has as its source. -/
inductive ConnectFailure (ε : Type) where
  /-- Of kind `NotFound`: "no resolved address". -/
  | noAddress
  /-- Of kind `TimedOut`: "direct route connect timed out". -/
  | timedOut
  | failed (e : ε)
deriving DecidableEq, Repr

/-- `DialError::with_source`, of kind `Connection`. -/
structure RouteError (ε : Type) where
  message : String
  source : ConnectFailure ε
deriving DecidableEq, Repr

/-- `DirectDialer`, with its timeout in nanoseconds. -/
structure DirectDialer where
  connectTimeout : Nat
deriving DecidableEq, Repr

namespace DirectDialer

/-- `MAX_CONNECT_TIMEOUT`, 300 s. -/
def maxConnectTimeout : Nat := 300 * 1000000000

def new : DirectDialer := ⟨10 * 1000000000⟩

def withConnectTimeout (timeout : Nat) : Except ChaosConfigError DirectDialer :=
  if timeout = 0 ∨ maxConnectTimeout < timeout then .error .connectTimeoutTooLong else .ok ⟨timeout⟩

/-- The loop over the resolved addresses. Time passes only in connecting; a connection
that is there when its time is up counts. -/
def connect (deadline : Nat) : Nat → Option (ConnectFailure ε) → List (Attempt τ ε) → Except (ConnectFailure ε) τ × Nat
  | now, last, [] => (.error (last.getD .noAddress), now)
  | now, _, a :: addresses =>
    let remaining := deadline - now
    if remaining = 0 then (.error .timedOut, now)
    else if a.elapsed ≤ remaining then
      match a.result with
      | .ok stream => (.ok stream, now + a.elapsed)
      | .error e => connect deadline (now + a.elapsed) (some (.failed e)) addresses
    else connect deadline (now + remaining) (some .timedOut) addresses

/-- `dial`, with what it returns and when. The deadline is taken once the name is resolved. -/
def dial (d : DirectDialer) (now : Nat) (lookup : Lookup τ ε) : Except (RouteError ε) τ × Nat :=
  let now := now + lookup.elapsed
  match lookup.result with
  | .error e => (.error ⟨"direct route resolution failed", .failed e⟩, now)
  | .ok addresses =>
    let (result, now) := connect (now + d.connectTimeout) now none addresses
    (result.mapError (⟨"direct route connection failed", ·⟩), now)

/-- Past the deadline no address is tried. -/
theorem connect_expired {deadline now : Nat} (h : deadline ≤ now) (addresses : List (Attempt τ ε)) :
    connect deadline now (some .timedOut) addresses = (.error .timedOut, now) := by
  cases addresses with
  | nil => rfl
  | cons a addresses => simp [connect, Nat.sub_eq_zero_of_le h]

theorem connect_by (deadline : Nat) {now : Nat} (hnow : now ≤ deadline) (last : Option (ConnectFailure ε))
    (addresses : List (Attempt τ ε)) : (connect deadline now last addresses).2 ≤ deadline := by
  induction addresses generalizing now last with
  | nil => exact hnow
  | cons a addresses ih =>
    simp only [connect]
    split
    · exact hnow
    · next hleft =>
      split
      · cases a.result with
        | ok stream => simp only; omega
        | error e => exact ih (by omega) _
      · exact ih (by omega) _

/-- The addresses that answer with an error within the time, one after the other. -/
def Refused (limit : Nat) (addresses : List (Attempt τ ε)) : Prop :=
  (∀ a ∈ addresses, ∃ e, a.result = .error e) ∧ (addresses.map Attempt.elapsed).sum < limit

/-- Addresses that refuse are passed over. -/
theorem connect_refused {deadline now : Nat} (last : Option (ConnectFailure ε)) {pre : List (Attempt τ ε)}
    (hpre : Refused (deadline - now) pre) (addresses : List (Attempt τ ε)) :
    ∃ last', connect deadline now last (pre ++ addresses) =
      connect deadline (now + (pre.map Attempt.elapsed).sum) last' addresses := by
  induction pre generalizing now last with
  | nil => exact ⟨last, rfl⟩
  | cons a pre ih =>
    obtain ⟨hall, hsum⟩ := hpre
    obtain ⟨e, he⟩ := hall a (by simp)
    rw [List.map_cons, List.sum_cons] at hsum
    have hrest : Refused (deadline - (now + a.elapsed)) pre := ⟨fun b hb => hall b (by simp [hb]), by omega⟩
    obtain ⟨last', hlast⟩ := ih (some (.failed e)) hrest
    refine ⟨last', ?_⟩
    rw [List.cons_append, connect, if_neg (by omega), if_pos (by omega), he]
    simp only [hlast, List.map_cons, List.sum_cons, Nat.add_assoc]

/-- An address that connects is found only after some that refuse. -/
theorem refused_of_connect {deadline now : Nat} {last : Option (ConnectFailure ε)} {addresses : List (Attempt τ ε)}
    {stream : τ} (h : (connect deadline now last addresses).1 = .ok stream) :
    ∃ pre a rest, addresses = pre ++ a :: rest ∧ Refused (deadline - now) pre ∧ a.result = .ok stream ∧
      (pre.map Attempt.elapsed).sum + a.elapsed ≤ deadline - now := by
  induction addresses generalizing now last with
  | nil => cases h
  | cons a addresses ih =>
    simp only [connect] at h
    split at h
    · cases h
    · next hleft =>
      split at h
      · next hfits =>
        split at h
        · next stream' hok =>
          cases h
          exact ⟨[], a, addresses, rfl, ⟨by simp, by simpa using Nat.pos_of_ne_zero hleft⟩, hok, by simpa using hfits⟩
        · next e he =>
          obtain ⟨pre, b, rest, rfl, ⟨hall, hsum⟩, hok, hb⟩ := ih h
          refine ⟨a :: pre, b, rest, rfl, ⟨?_, ?_⟩, hok, ?_⟩
          · intro c hc
            rcases List.mem_cons.1 hc with rfl | hc
            · exact ⟨e, he⟩
            · exact hall c hc
          · rw [List.map_cons, List.sum_cons]
            omega
          · rw [List.map_cons, List.sum_cons]
            omega
      · rw [connect_expired (by omega)] at h
        cases h

/-- Of the addresses the first that connects is taken, if those before it refuse in time. -/
theorem connect_ok_iff (now limit : Nat) (addresses : List (Attempt τ ε)) (stream : τ) :
    (connect (now + limit) now none addresses).1 = .ok stream ↔
      ∃ pre a rest, addresses = pre ++ a :: rest ∧ Refused limit pre ∧ a.result = .ok stream ∧
        (pre.map Attempt.elapsed).sum + a.elapsed ≤ limit := by
  have hbudget : now + limit - now = limit := by omega
  constructor
  · intro h
    have hfound := refused_of_connect h
    rwa [hbudget] at hfound
  · rintro ⟨pre, a, rest, rfl, hpre, hok, hfits⟩
    obtain ⟨_, hlast⟩ := connect_refused none (hbudget.symm ▸ hpre) (a :: rest)
    have hleft := hpre.2
    rw [hlast, connect, if_neg (by omega), if_pos (by omega), hok]

/-- An address that neither connects nor refuses takes the time that is left. -/
theorem connect_hanging (now : Nat) {limit : Nat} {pre : List (Attempt τ ε)} {a : Attempt τ ε} (hpre : Refused limit pre)
    (hhangs : limit < (pre.map Attempt.elapsed).sum + a.elapsed) (rest : List (Attempt τ ε)) :
    connect (now + limit) now none (pre ++ a :: rest) = (.error .timedOut, now + limit) := by
  have hbudget : now + limit - now = limit := by omega
  obtain ⟨_, hlast⟩ := connect_refused none (hbudget.symm ▸ hpre) (a :: rest)
  have hleft := hpre.2
  rw [hlast, connect, if_neg (by omega), if_neg (by omega), connect_expired (by omega)]
  congr 1
  omega

/-- The answer of a dial whose name is resolved. -/
theorem dial_resolved (d : DirectDialer) (now : Nat) {lookup : Lookup τ ε} {addresses : List (Attempt τ ε)}
    (h : lookup.result = .ok addresses) :
    d.dial now lookup =
      ((connect (now + lookup.elapsed + d.connectTimeout) (now + lookup.elapsed) none addresses).1.mapError
          (⟨"direct route connection failed", ·⟩),
        (connect (now + lookup.elapsed + d.connectTimeout) (now + lookup.elapsed) none addresses).2) := by
  rw [dial, h]

/-- Once its name is resolved a direct dial returns in time. It returns the first address
that connects, if those before it refuse and the time is not up; an address that neither
connects nor refuses takes all the time that is left, and those after it are not tried.
A resolution that fails is its error. -/
theorem direct_dial (d : DirectDialer) (now : Nat) (lookup : Lookup τ ε) :
    (d.dial now lookup).2 ≤ now + lookup.elapsed + d.connectTimeout ∧
    (∀ stream, (d.dial now lookup).1 = .ok stream ↔
      ∃ pre a rest, lookup.result = .ok (pre ++ a :: rest) ∧ Refused d.connectTimeout pre ∧ a.result = .ok stream ∧
        (pre.map Attempt.elapsed).sum + a.elapsed ≤ d.connectTimeout) ∧
    (∀ pre a rest, lookup.result = .ok (pre ++ a :: rest) → Refused d.connectTimeout pre →
      d.connectTimeout < (pre.map Attempt.elapsed).sum + a.elapsed →
        d.dial now lookup =
          (.error ⟨"direct route connection failed", .timedOut⟩, now + lookup.elapsed + d.connectTimeout)) ∧
    ∀ e, lookup.result = .error e →
      d.dial now lookup = (.error ⟨"direct route resolution failed", .failed e⟩, now + lookup.elapsed) := by
  cases hlookup : lookup.result with
  | error e =>
    have hdial : d.dial now lookup =
        (.error ⟨"direct route resolution failed", .failed e⟩, now + lookup.elapsed) := by rw [dial, hlookup]
    rw [hdial]
    refine ⟨Nat.le_add_right _ _, fun stream => iff_of_false (fun h => nomatch h) ?_, nofun, ?_⟩
    · rintro ⟨pre, a, rest, h, -⟩
      cases h
    · rintro _ ⟨⟩
      rfl
  | ok addresses =>
    rw [d.dial_resolved now hlookup]
    refine ⟨connect_by _ (Nat.le_add_right _ _) none addresses, fun stream => ?_, ?_, nofun⟩
    · rw [mapError_ok_iff, connect_ok_iff]
      simp only [Except.ok.injEq]
    · rintro pre a rest heq hpre hhangs
      obtain rfl := Except.ok.inj heq
      rw [connect_hanging _ hpre hhangs]
      rfl

end DirectDialer

end Eggchaos
