import Eggchaos.Health
import Eggchaos.Lib.Runs
/-!
# Runs of a stream

A run is any list of polls and publications, in any order, from a stream as one
of the constructors makes it. `PollRule` says once what a poll does to the
stream, and `step_rule` carries an invariant over a step; every engine the stream
holds on the way is `Healthy`.
-/

namespace Eggchaos
open Lib

/-! ## Healthy engines -/

section
variable {τ : Type} [AsyncWrite τ] [RecordsWrites τ]

theorem DirectionEngine.barrier_passed (e : DirectionEngine) (inner : τ) (c : Clock) :
    ∃ out, Passed e out (e.barrier inner c).2.1 ∧
      RecordsWrites.log (e.barrier inner c).2.2.1 = RecordsWrites.log inner ++ out := by
  unfold barrier
  split
  · exact ⟨[], .idle rfl rfl rfl rfl rfl ⟨_, _, _, _, _, _, _, rfl⟩, by simp⟩
  · exact e.pollFlush_passed inner c

omit [RecordsWrites τ] in
theorem DirectionEngine.barrier_wrote (e : DirectionEngine) (inner : τ) (c : Clock) :
    Wrote inner (e.barrier inner c).2.2.1 := by
  unfold barrier
  split
  · exact .refl
  · exact e.pollFlush_wrote inner c

theorem DirectionEngine.barrier_healthy {e : DirectionEngine} (h : e.Healthy) (inner : τ) (c : Clock) :
    (e.barrier inner c).2.1.Healthy := by
  obtain ⟨out, hp, -⟩ := e.barrier_passed inner c
  exact hp.healthy h

theorem DirectionEngine.accept_healthy {e : DirectionEngine} (h : e.Healthy) (hne : e.isEmpty = false) (c : Clock)
    (bytes : List Byte) : (e.accept c bytes).2.1.Healthy := by
  obtain ⟨ident, k, hl⟩ := h.lossAt
  have hr := e.refresh_passed c
  refine (accept_accepted hl c bytes).healthy (hr.healthy h) ?_
  rw [isEmpty, hr.plan]
  exact hne

end

namespace ChaosStream

section
variable {τ : Type} [AsyncWrite τ] [RecordsWrites τ]

theorem updateLive_healthy {s : ChaosStream τ} (h : s.engine.Healthy) (c : Clock) :
    (s.updateLive c).2.1.engine.Healthy := by
  unfold updateLive
  split
  · exact h
  · simp only
    split
    · exact DirectionEngine.barrier_healthy h s.inner c
    · exact DirectionEngine.replace_healthy _ _ _ _ _ _

theorem driveFlush_isEmpty (s : ChaosStream τ) (c : Clock) :
    (s.driveFlush c).2.1.engine.isEmpty = s.engine.isEmpty := by
  obtain ⟨out, hp, -⟩ := s.engine.pollFlush_passed s.inner c
  exact congrArg FaultPlan.isEmpty hp.plan

/-! ## What one poll keeps

A poll settles the generation, drives what is due, may hand its bytes to the
engine or straight to the transport, and drives again. `PollRule I J data` asks
for each of these once; the rule lemmas below take `I` before any poll to `J`
after it. `I` may speak of the instant, which holds up to the point where the
engine is asked; `data` is what the caller of a write hands in. -/

structure PollRule (I J : ChaosStream τ → Clock → Prop) (data : List Byte) : Prop where
  weaken : ∀ {s c}, I s c → J s c
  update : ∀ {s c}, I s c → I (s.updateLive c).2.1 (s.updateLive c).2.2
  drive : ∀ {s c}, I s c → I (s.driveFlush c).2.1 (s.driveFlush c).2.2
  accept : ∀ {s c bytes}, I s c → s.engine.isEmpty = false → s.terminated = false → bytes ≠ [] → bytes <+: data →
    J { s with engine := (s.engine.accept c bytes).2.1 } (s.engine.accept c bytes).2.2
  direct : ∀ {s c} inner, I s c → s.engine.isEmpty = true → J { s with inner } c
  passed : ∀ {s c out engine} inner c', J s c → DirectionEngine.Passed s.engine out engine →
    RecordsWrites.log inner = RecordsWrites.log s.inner ++ out → J { s with engine, inner } c'
  evidence : ∀ {s c} ev, J s c → J { s with evidence := ev } c

namespace PollRule
variable {I J : ChaosStream τ → Clock → Prop} {data : List Byte} {s : ChaosStream τ} {c : Clock}

theorem driven (r : PollRule I J data) (h : J s c) : J (s.driveFlush c).2.1 (s.driveFlush c).2.2 := by
  obtain ⟨out, hp, hlog⟩ := s.engine.pollFlush_passed s.inner c
  exact r.passed _ _ h hp hlog

theorem acceptWrite (r : PollRule I J data) (h : I s c) (hne : s.engine.isEmpty = false) (hopen : s.terminated = false)
    {bytes : List Byte} (hb : bytes ≠ []) (hpre : bytes <+: data) :
    J (s.acceptWrite c bytes).2.1 (s.acceptWrite c bytes).2.2 := by
  have ha := r.accept h hne hopen hb hpre
  unfold ChaosStream.acceptWrite
  simp only
  split
  · exact r.evidence _ (r.driven ha)
  · split
    · exact ha
    · exact ha

theorem offer (r : PollRule I J data) (h : I s c) (hne : s.engine.isEmpty = false) {bytes : List Byte}
    (hpre : bytes <+: data) : J (s.offer c bytes).2.1 (s.offer c bytes).2.2 := by
  unfold ChaosStream.offer
  split
  · exact r.weaken h
  · next hb =>
    split
    · exact r.weaken h
    · next hopen => exact r.acceptWrite h hne (by simpa using hopen) (by simpa using hb) hpre

theorem engineWrite (r : PollRule I J data) (h : I s c) (hne : s.engine.isEmpty = false) {bytes : List Byte}
    (hpre : bytes <+: data) : J (s.engineWrite c bytes).2.1 (s.engineWrite c bytes).2.2 := by
  have hd := r.drive h
  have he := s.driveFlush_isEmpty c
  unfold ChaosStream.engineWrite
  split
  · next hr =>
    rw [hr] at hd
    exact r.evidence _ (r.weaken hd)
  · next hr =>
    rw [hr] at hd he
    exact r.offer hd (he.trans hne) hpre

theorem settledWrite (r : PollRule I J data) (h : I s c) {bytes : List Byte} (hpre : bytes <+: data) :
    J (s.settledWrite c bytes).2.1 (s.settledWrite c bytes).2.2 := by
  unfold ChaosStream.settledWrite
  split
  · next he =>
    simp only [ChaosStream.direct]
    split
    · exact r.evidence _ (r.direct _ h he)
    · exact r.direct _ h he
  · next hne => exact r.engineWrite h (by simpa using hne) hpre

theorem pollWrite (r : PollRule I J data) (h : I s c) {bytes : List Byte} (hpre : bytes <+: data) :
    J (s.pollWrite c bytes).2.1 (s.pollWrite c bytes).2.2 := by
  have hu := r.update h
  unfold ChaosStream.pollWrite
  split
  · next hr =>
    rw [hr] at hu
    exact r.weaken hu
  · next s' c' hr =>
    rw [hr] at hu
    exact r.settledWrite hu hpre

theorem vectoredFull (r : PollRule I J data) (h : I s c) : J (s.vectoredFull c).2.1 (s.vectoredFull c).2.2 := by
  have hd := r.driven (r.weaken h)
  unfold ChaosStream.vectoredFull
  split
  · next hr =>
    rw [hr] at hd
    exact hd
  · next s' c' _ hr =>
    rw [hr] at hd
    have hp := r.passed s'.inner (s'.engine.refreshSyncTerminations c').2 hd (s'.engine.refresh_passed c') (by simp)
    unfold stalled
    simp only
    split
    · exact hp
    · exact hp

theorem pollWriteVectored {bufs : List (List Byte)} (r : PollRule I J bufs.flatten) (h : I s c) :
    J (s.pollWriteVectored c bufs).2.1 (s.pollWriteVectored c bufs).2.2 := by
  have hu := r.update h
  unfold ChaosStream.pollWriteVectored
  split
  · next hr =>
    rw [hr] at hu
    exact r.weaken hu
  · next s' c' hr =>
    rw [hr] at hu
    split
    · next he =>
      simp only [ChaosStream.direct]
      split
      · exact r.evidence _ (r.direct _ hu he)
      · exact r.direct _ hu he
    · split
      · exact r.pollWrite hu (List.prefix_refl _)
      · simp only
        split
        · exact r.vectoredFull hu
        · rw [DirectionEngine.joinPrefix_eq]
          exact r.pollWrite hu (List.take_prefix _ _)

theorem pollFlush (r : PollRule I J data) (h : I s c) : J (s.pollFlush c).2.1 (s.pollFlush c).2.2 := by
  have hu := r.weaken (r.update h)
  unfold ChaosStream.pollFlush
  split
  · next hr =>
    rw [hr] at hu
    exact hu
  · next s' c' hr =>
    rw [hr] at hu
    exact r.evidence _ (r.driven hu)

theorem pollShutdown (r : PollRule I J data) (h : I s c) : J (s.pollShutdown c).2.1 (s.pollShutdown c).2.2 := by
  have hu := r.weaken (r.update h)
  unfold ChaosStream.pollShutdown
  split
  · next hr =>
    rw [hr] at hu
    exact hu
  · next s' c' hr =>
    rw [hr] at hu
    obtain ⟨out, hp, hlog⟩ := s'.engine.pollShutdown_passed s'.inner c'
    exact r.evidence _ (r.passed _ _ hu hp hlog)

theorem pollTermination (r : PollRule I J data) (h : J s c) :
    J (s.pollTermination c).2.1 (s.pollTermination c).2.2 := by
  unfold ChaosStream.pollTermination
  split
  · exact h
  · have hp := r.passed s.inner (s.engine.pollDueTermination c).2.2 h (s.engine.pollDueTermination_passed c) (by simp)
    simp only
    split
    · exact hp
    · exact hp

/-- A read drives the queue too; reading itself writes nothing. -/
theorem pollRead [AsyncRead τ] (r : PollRule I J data)
    (hread : ∀ (t : τ) cap, RecordsWrites.log (AsyncRead.pollRead t cap).2 = RecordsWrites.log t) (h : J s c)
    (cap : Nat) : J (s.pollRead c cap).2.1 (s.pollRead c cap).2.2 := by
  have hinner : ∀ {s : ChaosStream τ} {c}, J s c → J { s with inner := (AsyncRead.pollRead s.inner cap).2 } c := by
    intro s c h
    exact r.passed _ c h (.idle rfl rfl rfl rfl rfl ⟨_, _, _, _, _, _, _, rfl⟩) (by simp [hread])
  unfold ChaosStream.pollRead
  split
  · exact hinner h
  · have hd := hinner (r.evidence ((s.driveFlush c).2.1.evidence.mirrorEngine (s.driveFlush c).2.1.engine) (r.driven h))
    simp only
    split
    · exact hd
    · exact hd

end PollRule

/-- The engine of a healthy stream stays healthy. -/
theorem healthyRule (data : List Byte) :
    PollRule (fun (s : ChaosStream τ) _ => s.engine.Healthy) (fun s _ => s.engine.Healthy) data where
  weaken h := h
  update h := updateLive_healthy h _
  drive {s c} h := by
    obtain ⟨out, hp, -⟩ := s.engine.pollFlush_passed s.inner c
    exact hp.healthy h
  accept h hne _ _ _ := DirectionEngine.accept_healthy h hne _ _
  direct _ h _ := h
  passed _ _ h hp _ := hp.healthy h
  evidence _ h := h

end

end ChaosStream

/-- A stream over a tapped transport, and the clock. -/
structure StreamRun (τ : Type) where
  stream : ChaosStream (Tap τ)
  clock : Clock

namespace StreamRun
variable {τ : Type} [AsyncWrite τ] [AsyncRead τ]

inductive Op where
  | write (bytes : List Byte)
  | writeVectored (bufs : List (List Byte))
  | flush
  | shutdown
  | read (cap : Nat)
  | pollTermination
  | publish (plan : FaultPlan) (seedNamespace : UInt64)
deriving DecidableEq, Repr

/-- Somebody publishes a plan on the stream's policy, if it has one. -/
def publish (s : ChaosStream (Tap τ)) (plan : FaultPlan) (seedNamespace : UInt64) : ChaosStream (Tap τ) :=
  { s with livePolicy := s.livePolicy.map fun policy => (policy.publish plan seedNamespace).2 }

def step (s : StreamRun τ) : Op → StreamRun τ
  | .write bytes => let (_, stream, clock) := s.stream.pollWrite s.clock bytes; ⟨stream, clock⟩
  | .writeVectored bufs => let (_, stream, clock) := s.stream.pollWriteVectored s.clock bufs; ⟨stream, clock⟩
  | .flush => let (_, stream, clock) := s.stream.pollFlush s.clock; ⟨stream, clock⟩
  | .shutdown => let (_, stream, clock) := s.stream.pollShutdown s.clock; ⟨stream, clock⟩
  | .read cap => let (_, stream, clock) := s.stream.pollRead s.clock cap; ⟨stream, clock⟩
  | .pollTermination => let (_, stream, clock) := s.stream.pollTermination s.clock; ⟨stream, clock⟩
  | .publish plan seedNamespace => { s with stream := publish s.stream plan seedNamespace }

/-- A stream as a constructor makes it, over a transport that has taken nothing. -/
def Started (s : StreamRun τ) : Prop :=
  ∃ io c, (∃ plan ident, ChaosStream.new { io } plan ident c = (.ok s.stream, s.clock)) ∨
    (∃ direction, ChaosStream.passthrough { io } direction c = (s.stream, s.clock)) ∨
    (∃ policy proxy key direction, ChaosStream.newLive { io } policy proxy key direction c = (.ok s.stream, s.clock))

def Reachable (s : StreamRun τ) : Prop := ∃ s₀ ops, Started s₀ ∧ s = run step s₀ ops

/-- The stream `new_live` makes. -/
def start (io : τ) (policy : LivePolicy) (proxy : String) (key : UInt64) (direction : Direction) (c : Clock) :
    StreamRun τ where
  stream := {
    inner := { io }
    engine := .compile policy.snapshot.plan ⟨policy.snapshot.seedNamespace, proxy, key, direction⟩ .new c.now
    direction, proxy
    connectionKey := key
    livePolicy := some policy
    observedGeneration := policy.snapshot.generation
    evidence := ({} : StreamEvidence).refreshPolicy policy.snapshot.generation policy.snapshot.plan
      policy.snapshot.seedNamespace }
  clock := c.tick

omit [AsyncWrite τ] [AsyncRead τ] in
theorem start_started (io : τ) (policy : LivePolicy) (proxy : String) (key : UInt64) (direction : Direction)
    (c : Clock) : Started (start io policy proxy key direction c) := by
  refine ⟨io, c, .inr (.inr ⟨policy, proxy, key, direction, ?_⟩)⟩
  simp only [ChaosStream.newLive, DirectionEngine.newWithArcPlan, policy.snapshot.valid]
  rfl

theorem start_reachable (io : τ) (policy : LivePolicy) (proxy : String) (key : UInt64) (direction : Direction)
    (c : Clock) (ops : List Op) : Reachable (run step (start io policy proxy key direction c) ops) :=
  ⟨_, ops, start_started io policy proxy key direction c, rfl⟩

theorem Reachable.step {s : StreamRun τ} (h : Reachable s) (op : Op) : Reachable (step s op) := by
  obtain ⟨s₀, ops, hs, rfl⟩ := h
  exact ⟨s₀, ops ++ [op], hs, by rw [run_append]; rfl⟩

/-- The bytes an operation hands in. -/
def Op.data : Op → List Byte
  | .write bytes => bytes
  | .writeVectored bufs => bufs.flatten
  | _ => []

/-- A rule for the polls is a rule for the steps; a publication is left to `J`. -/
theorem step_rule {I J : ChaosStream (Tap τ) → Clock → Prop} {s : StreamRun τ} {op : Op}
    (r : ChaosStream.PollRule I J op.data) (h : I s.stream s.clock)
    (hpub : ∀ plan seed, op = .publish plan seed → J (publish s.stream plan seed) s.clock) :
    J (step s op).stream (step s op).clock := by
  cases op with
  | write bytes => exact r.pollWrite h (List.prefix_refl _)
  | writeVectored bufs => exact r.pollWriteVectored h
  | flush => exact r.pollFlush h
  | shutdown => exact r.pollShutdown h
  | read cap => exact r.pollRead (fun _ _ => rfl) (r.weaken h) cap
  | pollTermination => exact r.pollTermination (r.weaken h)
  | publish plan seed => exact hpub plan seed rfl

theorem step_healthy {s : StreamRun τ} (h : s.stream.engine.Healthy) (op : Op) :
    (step s op).stream.engine.Healthy :=
  step_rule (ChaosStream.healthyRule op.data) h fun _ _ _ => h

omit [AsyncWrite τ] [AsyncRead τ] in
/-- A started stream holds a freshly compiled engine, or the empty one, and the
evidence of no call; a policy is that of its own direction. -/
theorem Started.fresh {s : StreamRun τ} (h : Started s) :
    ((∃ plan ident now, s.stream.engine = DirectionEngine.compile plan ident .new now) ∨
        ∃ c, s.stream.engine = (DirectionEngine.empty c).1) ∧
      ((∃ generation plan seed, s.stream.evidence = ({} : StreamEvidence).refreshPolicy generation plan seed) ∨
        s.stream.evidence = {}) ∧
      (s.stream.livePolicy.isSome → s.stream.engine.direction = s.stream.direction) := by
  obtain ⟨io, c, ⟨plan, ident, h⟩ | ⟨direction, h⟩ | ⟨policy, proxy, key, direction, h⟩⟩ := h
  · unfold ChaosStream.new DirectionEngine.new at h
    split at h
    · cases h
    · next engine c' hn =>
      have hengine := (DirectionEngine.newWithArcPlan_ok hn).2.1
      simp only [Prod.mk.injEq, Except.ok.injEq] at h
      rw [← h.1]
      exact ⟨.inl ⟨plan, ident, c.now, hengine⟩, .inl ⟨_, _, _, rfl⟩, by simp⟩
  · simp only [ChaosStream.passthrough, Prod.mk.injEq] at h
    rw [← h.1]
    exact ⟨.inr ⟨c, rfl⟩, .inr rfl, by simp⟩
  · unfold ChaosStream.newLive at h
    simp only at h
    split at h
    · cases h
    · next engine c' hn =>
      have hengine := (DirectionEngine.newWithArcPlan_ok hn).2.1
      simp only [Prod.mk.injEq, Except.ok.injEq] at h
      rw [← h.1]
      exact ⟨.inl ⟨_, _, _, hengine⟩, .inl ⟨_, _, _, rfl⟩, fun _ => by rw [hengine]; rfl⟩

omit [AsyncWrite τ] [AsyncRead τ] in
theorem Started.engine {s : StreamRun τ} (h : Started s) :
    (∃ plan ident now, s.stream.engine = DirectionEngine.compile plan ident .new now) ∨
      ∃ c, s.stream.engine = (DirectionEngine.empty c).1 := h.fresh.1

omit [AsyncWrite τ] [AsyncRead τ] in
theorem Started.healthy {s : StreamRun τ} (h : Started s) : s.stream.engine.Healthy := by
  rcases h.engine with ⟨plan, ident, now, he⟩ | ⟨c, he⟩
  · rw [he]; exact DirectionEngine.compile_healthy _ _ _ _
  · rw [he]; exact DirectionEngine.empty_healthy c

theorem Reachable.healthy {s : StreamRun τ} (h : Reachable s) : s.stream.engine.Healthy := by
  obtain ⟨s₀, ops, hs, rfl⟩ := h
  exact run_inv (fun s : StreamRun τ => s.stream.engine.Healthy) (fun _ op hs => step_healthy hs op) hs.healthy ops

/-! ## Concrete streams -/

/-- A fault that is active on every connection. -/
def always (name : String) (kind : FaultKind) (h : name ≠ "" := by decide)
    (h' : name.utf8ByteSize ≤ 128 := by decide) : FaultSpec := ⟨⟨name, h, h'⟩, .one, kind⟩

theorem slow_nonempty : "slow" ≠ "" := by decide
theorem slow_short : "slow".utf8ByteSize ≤ 128 := by decide

/-- A fixed latency. -/
def slow (delay : Nat) (cap : NonZeroU64) : FaultSpec :=
  always "slow" (.latency ⟨delay, 0, cap⟩) slow_nonempty slow_short

def cut (after : Nat) (hardReset : Bool) : FaultSpec := always "cut" (.disconnect ⟨after, hardReset⟩)

/-- One millisecond of latency. -/
def slowPlan : FaultPlan := ⟨[slow 1000000 ⟨65536, by decide, by decide⟩]⟩

theorem slowPlan_valid : slowPlan.validate = .ok () := rfl

/-- A stream under `plan` over a scripted transport. -/
def scripted (io : Script) (plan : FaultPlan) (valid : plan.validate = .ok ()) (c : Clock) : StreamRun Script :=
  start io (.new plan 0 valid) "proxy" 1 .upstream c

end StreamRun

end Eggchaos
