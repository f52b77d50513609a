import Eggchaos.Bidirectional
import Eggchaos.StreamRuns
/-!
# Runs of a bidirectional stream

A run is any list of polls and publications, from a stream as `new_live` makes
it. The run state also keeps the bytes that reads have delivered. Both engines
stay `Healthy`.

`readLoop_inv` is the rule for the read loop: what a turn keeps, and what it
ends with, a whole read keeps and ends with. `WriteRule` is the rule for the
write direction.
-/

namespace Eggchaos
open Lib

namespace BidirectionalChaosStream

/-- Both engines are healthy. -/
structure Fit {τ : Type} (s : BidirectionalChaosStream τ) : Prop where
  upstream : s.upstream.Healthy
  downstream : s.downstream.Healthy

/-! ## The read loop -/

/-- A turn that ends meets `D`, and one that goes on leaves `A`. -/
def Turn.Sat {τ : Type} (A : BidirectionalChaosStream τ → Prop)
    (D : Poll (IoResult (List Byte)) → BidirectionalChaosStream τ → Prop) : Turn τ → Prop
  | .done outcome s _ => D outcome s
  | .again s _ => A s

theorem Turn.Sat.and {τ : Type} {A A' : BidirectionalChaosStream τ → Prop}
    {D D' : Poll (IoResult (List Byte)) → BidirectionalChaosStream τ → Prop} {t : Turn τ} (h : t.Sat A D)
    (h' : t.Sat A' D') : t.Sat (fun s => A s ∧ A' s) fun outcome s => D outcome s ∧ D' outcome s := by
  cases t with
  | done outcome s c => exact ⟨h, h'⟩
  | again s c => exact ⟨h, h'⟩

theorem Turn.Sat.mono {τ : Type} {A A' : BidirectionalChaosStream τ → Prop}
    {D D' : Poll (IoResult (List Byte)) → BidirectionalChaosStream τ → Prop} {t : Turn τ} (h : t.Sat A D)
    (ha : ∀ s, A s → A' s) (hd : ∀ outcome s, D outcome s → D' outcome s) : t.Sat A' D' := by
  cases t with
  | done outcome s c => exact hd outcome s h
  | again s c => exact ha s h

theorem readLoop_inv {τ : Type} [AsyncRead τ] {A : BidirectionalChaosStream τ → Prop}
    {D : Poll (IoResult (List Byte)) → BidirectionalChaosStream τ → Prop} {cap : Nat}
    (hturn : ∀ s c, A s → (s.readTurn c cap).Sat A D) {fuel : Nat} {s s' : BidirectionalChaosStream τ} {c c' : Clock}
    {outcome : Poll (IoResult (List Byte))} (h : A s) (hr : readLoop fuel s c cap = some (outcome, s', c')) :
    D outcome s' := by
  induction fuel generalizing s c with
  | zero => cases hr
  | succ fuel ih =>
    have ht := hturn s c h
    unfold readLoop at hr
    split at hr
    · next hd =>
      rw [hd] at ht
      simp only [Option.some.injEq, Prod.mk.injEq] at hr
      rw [← hr.1, ← hr.2.1]
      exact ht
    · next hd =>
      rw [hd] at ht
      exact ih ht hr

/-- A loop whose turns each go down in `μ` returns, with fuel for `μ` turns. -/
theorem readLoop_returns {τ : Type} [AsyncRead τ] {A : BidirectionalChaosStream τ → Prop}
    {μ : BidirectionalChaosStream τ → Nat} {cap : Nat}
    (hturn : ∀ s c, A s → (s.readTurn c cap).Sat (fun s' => A s' ∧ μ s' < μ s) fun _ _ => True) {fuel : Nat}
    {s : BidirectionalChaosStream τ} (h : A s) (hfuel : μ s < fuel) (c : Clock) : (readLoop fuel s c cap).isSome := by
  induction fuel generalizing s c with
  | zero => omega
  | succ fuel ih =>
    have ht := hturn s c h
    unfold readLoop
    split
    · rfl
    · next hd =>
      rw [hd] at ht
      exact ih ht.1 (by have := ht.2; omega) _

/-! ## The downstream half -/

section
variable {τ : Type}

theorem updateDownstream_fit {s : BidirectionalChaosStream τ} (h : s.Fit) (c : Clock) :
    (s.updateDownstream c).2.1.Fit := by
  unfold updateDownstream
  split
  · exact h
  · simp only
    split
    · exact ⟨h.upstream, h.downstream⟩
    · split
      · exact ⟨h.upstream, DirectionEngine.barrier_healthy h.downstream _ c⟩
      · exact ⟨h.upstream, DirectionEngine.replace_healthy _ _ _ _ _ _⟩

theorem flushDownstream_passed (s : BidirectionalChaosStream τ) (c : Clock) :
    ∃ out, s.downstream.Passed out (s.flushDownstream c).2.1.downstream ∧
      (s.flushDownstream c).2.1.output = s.output ++ out :=
  s.downstream.pollFlush_passed (CaptureWriter.mk s.output) c

/-- A stream in the read loop: fit, and its downstream engine has a plan. -/
structure Reading (s : BidirectionalChaosStream τ) : Prop extends Fit s where
  planned : s.downstream.isEmpty = false

theorem Reading.same {s s' : BidirectionalChaosStream τ} (h : s.Reading) (hu : s'.upstream = s.upstream)
    (hd : s'.downstream = s.downstream) : s'.Reading :=
  ⟨⟨hu ▸ h.upstream, hd ▸ h.downstream⟩, hd ▸ h.planned⟩

theorem flushDownstream_reading {s : BidirectionalChaosStream τ} (h : s.Reading) (c : Clock) :
    (s.flushDownstream c).2.1.Reading := by
  obtain ⟨out, hp, -⟩ := s.flushDownstream_passed c
  exact ⟨⟨h.upstream, hp.healthy h.downstream⟩, (congrArg FaultPlan.isEmpty hp.plan).trans h.planned⟩

theorem acceptDownstream_reading {s : BidirectionalChaosStream τ} (h : s.Reading) (c : Clock) (bytes : List Byte) :
    (s.acceptDownstream c bytes).2.1.Reading := by
  obtain ⟨ident, k, hl⟩ := h.downstream.lossAt
  have ha := DirectionEngine.accept_accepted hl c bytes
  refine ⟨⟨h.upstream, DirectionEngine.accept_healthy h.downstream h.planned c bytes⟩, ?_⟩
  have hsetup := ha.setup.trans (s.downstream.refresh_passed c).setup
  exact (congrArg (·.plan.isEmpty) hsetup).trans h.planned

theorem offerPending_reading {s : BidirectionalChaosStream τ} (h : s.Reading) (c : Clock) :
    (s.offerPending c).Sat Reading fun _ => Reading := by
  have h₀ : ({ s with pendingDownstream := [] } : BidirectionalChaosStream τ).Reading :=
    h.same rfl rfl
  have ha := acceptDownstream_reading h₀ c s.pendingDownstream
  unfold offerPending
  simp only
  generalize ({ s with pendingDownstream := [] } : BidirectionalChaosStream τ).acceptDownstream c
    s.pendingDownstream = accepted at *
  split
  · split
    · exact ha.same rfl rfl
    · have hf := flushDownstream_reading ha accepted.2.2
      split
      · next hr => rw [hr] at hf; exact hf
      · next hr =>
        rw [hr] at hf
        split
        · exact hf
        · exact hf
  · exact ha

variable [AsyncRead τ]

theorem readInner_reading {s : BidirectionalChaosStream τ} (h : s.Reading) (c : Clock) :
    (s.readInner c).Sat Reading fun _ => Reading := by
  unfold readInner
  split
  · next bytes inner _ =>
    have h' : ({ s with inner } : BidirectionalChaosStream τ).Reading := h.same rfl rfl
    simp only
    split
    · exact h'
    · have ha := acceptDownstream_reading h' c bytes
      split
      · exact ha
      · exact ha
  · exact h.same rfl rfl
  · exact h.same rfl rfl

theorem readGraceful_reading {s : BidirectionalChaosStream τ} (h : s.Reading) (c : Clock) :
    (s.readGraceful c).Sat Reading fun _ => Reading := by
  unfold readGraceful
  split
  · next bytes inner _ =>
    have h' : ({ s with inner } : BidirectionalChaosStream τ).Reading := h.same rfl rfl
    simp only
    split
    · exact h'
    · have ha := acceptDownstream_reading h' c bytes
      generalize ({ s with inner } : BidirectionalChaosStream τ).acceptDownstream c bytes = accepted at *
      split
      · exact ha
      · have hf := flushDownstream_reading ha accepted.2.2
        split
        · next hr => rw [hr] at hf; exact hf.same rfl rfl
        · next hr =>
          rw [hr] at hf
          split
          · exact hf.same rfl rfl
          · exact hf.same rfl rfl
  · exact h.same rfl rfl
  · exact h.same rfl rfl

theorem readDrained_reading {s : BidirectionalChaosStream τ} (h : s.Reading) (c : Clock) :
    (s.readDrained c).Sat Reading fun _ => Reading := by
  unfold readDrained
  split
  · exact readGraceful_reading h c
  · exact h
  · exact readInner_reading h c

theorem readTurn_reading {s : BidirectionalChaosStream τ} (h : s.Reading) (c : Clock) (cap : Nat) :
    (s.readTurn c cap).Sat Reading fun _ => Reading := by
  unfold readTurn
  split
  · exact h.same rfl rfl
  split
  · exact offerPending_reading h c
  split
  · have hf := flushDownstream_reading h c
    split
    · next hr => rw [hr] at hf; exact hf.same rfl rfl
    · next hr => rw [hr] at hf; exact hf.same rfl rfl
    · next s' c' hr =>
      rw [hr] at hf
      have hm : s'.mirrorDownstream.Reading := hf.same rfl rfl
      simp only
      split
      · exact hm
      · exact readDrained_reading hm c'
  · exact readDrained_reading h c

end

/-! ## Whole polls -/

section
variable {τ : Type} [AsyncWrite τ] [RecordsWrites τ]

/-- What the write direction of a poll does: it drives the upstream engine over
the transport, hands bytes to one of them, and may replace the engine. An `I`
that each of these keeps is kept by every poll that does not read, once the
downstream update keeps it. -/
structure WriteRule (I : BidirectionalChaosStream τ → Prop) : Prop where
  passed : ∀ {s out upstream} inner, I s → DirectionEngine.Passed s.upstream out upstream → Wrote s.inner inner →
    I { s with upstream, inner }
  accept : ∀ {s} c bytes, I s → s.upstream.isEmpty = false →
    I { s with upstream := (s.upstream.accept c bytes).2.1 }
  replace : ∀ {s} snapshot c, I s → I { s with
    upstream := (s.upstream.replace snapshot s.proxy s.connectionKey .upstream c).1
    observedUpstream := snapshot.generation }
  evidence : ∀ {s} ev, I s → I { s with upstreamEvidence := ev }

theorem flushUpstream_isEmpty (s : BidirectionalChaosStream τ) (c : Clock) :
    (s.flushUpstream c).2.1.upstream.isEmpty = s.upstream.isEmpty := by
  obtain ⟨out, hp, -⟩ := s.upstream.pollFlush_passed s.inner c
  exact congrArg FaultPlan.isEmpty hp.plan

namespace WriteRule
variable {I : BidirectionalChaosStream τ → Prop} {s : BidirectionalChaosStream τ}

theorem updateUpstream (r : WriteRule I) (h : I s) (c : Clock) : I (s.updateUpstream c).2.1 := by
  unfold BidirectionalChaosStream.updateUpstream
  split
  · exact h
  · next snapshot _ =>
    obtain ⟨out, hp, -⟩ := s.upstream.barrier_passed s.inner c
    have hb := r.passed _ (r.evidence { s.upstreamEvidence with pendingGeneration := snapshot.generation } h) hp
      (s.upstream.barrier_wrote s.inner c)
    simp only
    split
    · exact hb
    · exact r.evidence _ (r.replace snapshot _ hb)

theorem flushUpstream (r : WriteRule I) (h : I s) (c : Clock) : I (s.flushUpstream c).2.1 := by
  obtain ⟨out, hp, -⟩ := s.upstream.pollFlush_passed s.inner c
  exact r.passed _ h hp (s.upstream.pollFlush_wrote s.inner c)

theorem settledWrite (r : WriteRule I) (h : I s) (c : Clock) (bytes : List Byte) : I (s.settledWrite c bytes).2.1 := by
  unfold BidirectionalChaosStream.settledWrite
  split
  · have hw : I { s with inner := (AsyncWrite.pollWrite s.inner bytes).2 } :=
      r.passed _ h (.idle rfl rfl rfl rfl rfl ⟨_, _, _, _, _, _, _, rfl⟩) (.write bytes .refl)
    split
    · next hr =>
      rw [hr] at hw
      exact r.evidence _ hw
    · next hr =>
      rw [hr] at hw
      exact hw
  · next hne =>
    have hf := r.flushUpstream h c
    have he := s.flushUpstream_isEmpty c
    split
    · next hr =>
      rw [hr] at hf
      exact r.evidence _ hf
    · next s' c' _ hr =>
      rw [hr] at hf he
      split
      · exact hf
      split
      · exact r.evidence _ hf
      have ha := r.accept c' bytes hf (he.trans (by simpa using hne))
      simp only
      split
      · exact r.evidence _ (r.flushUpstream ha _)
      · split
        · exact ha
        · exact ha

theorem pollWrite (r : WriteRule I) {c : Clock} (h : I (s.updatePolicies c).2.1) (bytes : List Byte) :
    I (s.pollWrite c bytes).2.1 := by
  unfold BidirectionalChaosStream.pollWrite
  split
  · next hr => rw [hr] at h; exact r.settledWrite h _ _
  · next hr => rw [hr] at h; exact h
  · next hr => rw [hr] at h; exact h

theorem pollFlush (r : WriteRule I) {c : Clock} (h : I (s.updatePolicies c).2.1) : I (s.pollFlush c).2.1 := by
  unfold BidirectionalChaosStream.pollFlush
  split
  · next hr =>
    rw [hr] at h
    exact r.evidence _ (r.flushUpstream h _)
  · exact h

theorem pollShutdown (r : WriteRule I) {c : Clock} (h : I (s.updatePolicies c).2.1) : I (s.pollShutdown c).2.1 := by
  unfold BidirectionalChaosStream.pollShutdown
  split
  · next s' c' hr =>
    rw [hr] at h
    obtain ⟨out, hp, -⟩ := s'.upstream.pollShutdown_passed s'.inner c'
    exact r.passed _ h hp (s'.upstream.pollShutdown_wrote s'.inner c')
  · exact h

/-- A read pumps the write direction before it reads. -/
theorem pumped (r : WriteRule I) (h : I s) (c : Clock) : I (s.pump c).1 := by
  unfold pump
  split
  · exact h
  · exact r.evidence _ (r.flushUpstream h c)

end WriteRule

omit [RecordsWrites τ] in
/-- Both engines stay healthy. -/
theorem fitRule : WriteRule (Fit (τ := τ)) where
  passed _ h hp _ := ⟨hp.healthy h.upstream, h.downstream⟩
  accept c bytes h hne := ⟨DirectionEngine.accept_healthy h.upstream hne c bytes, h.downstream⟩
  replace _ _ h := ⟨DirectionEngine.replace_healthy _ _ _ _ _ _, h.downstream⟩
  evidence _ h := ⟨h.upstream, h.downstream⟩

theorem updatePolicies_fit {s : BidirectionalChaosStream τ} (h : s.Fit) (c : Clock) :
    (s.updatePolicies c).2.1.Fit := by
  have hu := fitRule.updateUpstream h c
  unfold updatePolicies
  split
  · next hr => rw [hr] at hu; exact hu
  · next s' c' hr =>
    rw [hr] at hu
    have hd := updateDownstream_fit hu c'
    split
    · next hr' => rw [hr'] at hd; exact hd
    · next hr' => rw [hr'] at hd; exact hd

variable [AsyncRead τ]

theorem settledRead_fit {s s' : BidirectionalChaosStream τ} (h : s.Fit) {fuel cap : Nat} {c c' : Clock}
    {outcome : Poll (IoResult (List Byte))} (hr : s.settledRead fuel c cap = some (outcome, s', c')) : s'.Fit := by
  have hp := fitRule.pumped h c
  unfold settledRead at hr
  generalize s.pump c = pumped at hp hr
  obtain ⟨s₁, c₁⟩ := pumped
  simp only at hp hr
  split at hr
  · split at hr
    · simp only [Option.some.injEq, Prod.mk.injEq] at hr
      rw [← hr.2.1]
      exact ⟨hp.upstream, hp.downstream⟩
    · simp only [Option.some.injEq, Prod.mk.injEq] at hr
      rw [← hr.2.1]
      exact ⟨hp.upstream, hp.downstream⟩
  · next hne =>
    have hread : s₁.Reading := ⟨hp, by simpa using hne⟩
    exact (readLoop_inv (D := fun _ => Reading) (fun s c h => readTurn_reading h c cap) hread hr).toFit

theorem pollRead_fit {s s' : BidirectionalChaosStream τ} (h : s.Fit) {fuel cap : Nat} {c c' : Clock}
    {outcome : Poll (IoResult (List Byte))} (hr : s.pollRead fuel c cap = some (outcome, s', c')) : s'.Fit := by
  have hu := updatePolicies_fit h c
  unfold pollRead at hr
  split at hr
  · next hq => rw [hq] at hu; exact settledRead_fit hu hr
  · next hq =>
    rw [hq] at hu
    simp only [Option.some.injEq, Prod.mk.injEq] at hr
    rw [← hr.2.1]; exact hu
  · next hq =>
    rw [hq] at hu
    simp only [Option.some.injEq, Prod.mk.injEq] at hr
    rw [← hr.2.1]; exact hu

end

end BidirectionalChaosStream

/-- A stream over a tapped transport, the clock, and what reads have delivered. -/
structure BidirectionalRun (τ : Type) where
  stream : BidirectionalChaosStream (Tap τ)
  clock : Clock
  delivered : List Byte := []

namespace BidirectionalRun
variable {τ : Type} [AsyncWrite τ] [AsyncRead τ]

/-- The calls and publications of a run. A read says within how many turns it
returns; with fewer it is no call. -/
inductive Op where
  | read (cap fuel : Nat)
  | write (bytes : List Byte)
  | writeVectored (bufs : List (List Byte))
  | flush
  | shutdown
  | publishUpstream (plan : FaultPlan) (seedNamespace : UInt64)
  | publishDownstream (plan : FaultPlan) (seedNamespace : UInt64)
deriving DecidableEq, Repr

def step (s : BidirectionalRun τ) : Op → BidirectionalRun τ
  | .read cap fuel =>
    match s.stream.pollRead fuel s.clock cap with
    | some (outcome, stream, clock) => ⟨stream, clock, s.delivered ++ handedOut outcome⟩
    | none => s
  | .write bytes => let (_, stream, clock) := s.stream.pollWrite s.clock bytes; { s with stream, clock }
  | .writeVectored bufs => let (_, stream, clock) := s.stream.pollWriteVectored s.clock bufs; { s with stream, clock }
  | .flush => let (_, stream, clock) := s.stream.pollFlush s.clock; { s with stream, clock }
  | .shutdown => let (_, stream, clock) := s.stream.pollShutdown s.clock; { s with stream, clock }
  | .publishUpstream plan seedNamespace => { s with stream := { s.stream with
      upstreamPolicy := s.stream.upstreamPolicy.map fun policy => (policy.publish plan seedNamespace).2 } }
  | .publishDownstream plan seedNamespace => { s with stream := { s.stream with
      downstreamPolicy := s.stream.downstreamPolicy.map fun policy => (policy.publish plan seedNamespace).2 } }

/-- A stream as `new_live` makes it. -/
def Started (s : BidirectionalRun τ) : Prop :=
  s.delivered = [] ∧ ∃ io upstream downstream proxy key c,
    BidirectionalChaosStream.newLive { io } upstream downstream proxy key c = (.ok s.stream, s.clock)

def Reachable (s : BidirectionalRun τ) : Prop := ∃ s₀ ops, Started s₀ ∧ s = run step s₀ ops

/-- The stream `new_live` makes. -/
def start (io : τ) (upstream downstream : LivePolicy) (proxy : String) (key : UInt64) (c : Clock) :
    BidirectionalRun τ where
  stream := {
    inner := { io }
    upstream := .compile upstream.snapshot.plan ⟨upstream.snapshot.seedNamespace, proxy, key, .upstream⟩ .new c.now
    downstream := .compile downstream.snapshot.plan ⟨downstream.snapshot.seedNamespace, proxy, key, .downstream⟩ .new
      c.tick.now
    output := []
    pendingDownstream := []
    upstreamPolicy := some upstream
    downstreamPolicy := some downstream
    observedUpstream := upstream.snapshot.generation
    observedDownstream := downstream.snapshot.generation
    proxy
    connectionKey := key
    upstreamEvidence := ({} : StreamEvidence).refreshPolicy upstream.snapshot.generation upstream.snapshot.plan
      upstream.snapshot.seedNamespace
    downstreamEvidence := ({} : StreamEvidence).refreshPolicy downstream.snapshot.generation downstream.snapshot.plan
      downstream.snapshot.seedNamespace }
  clock := c.tick.tick

omit [AsyncWrite τ] [AsyncRead τ] in
theorem start_started (io : τ) (upstream downstream : LivePolicy) (proxy : String) (key : UInt64) (c : Clock) :
    Started (start io upstream downstream proxy key c) := by
  refine ⟨rfl, io, upstream, downstream, proxy, key, c, ?_⟩
  simp only [BidirectionalChaosStream.newLive, DirectionEngine.newWithArcPlan, upstream.snapshot.valid,
    downstream.snapshot.valid]
  rfl

omit [AsyncWrite τ] [AsyncRead τ] in
/-- What a started stream holds. -/
theorem Started.engines {s : BidirectionalRun τ} (h : Started s) :
    ∃ io upstream downstream proxy key c c',
      s.stream.inner = { io } ∧ s.stream.output = [] ∧ s.stream.pendingDownstream = [] ∧
      s.stream.upstream = DirectionEngine.compile (LivePolicy.snapshot upstream).plan
        ⟨upstream.snapshot.seedNamespace, proxy, key, .upstream⟩ .new (Clock.now c) ∧
      s.stream.downstream = DirectionEngine.compile (LivePolicy.snapshot downstream).plan
        ⟨downstream.snapshot.seedNamespace, proxy, key, .downstream⟩ .new (Clock.now c') ∧
      s.stream.downstreamPolicy = some downstream := by
  obtain ⟨-, io, upstream, downstream, proxy, key, c, h⟩ := h
  unfold BidirectionalChaosStream.newLive at h
  simp only at h
  split at h
  · cases h
  · next hu =>
    split at h
    · cases h
    · next hd =>
      simp only [Prod.mk.injEq, Except.ok.injEq] at h
      rw [← h.1]
      exact ⟨io, upstream, downstream, proxy, key, c, _, rfl, rfl, rfl, (DirectionEngine.newWithArcPlan_ok hu).2.1,
        (DirectionEngine.newWithArcPlan_ok hd).2.1, rfl⟩

theorem step_fit {s : BidirectionalRun τ} (h : s.stream.Fit) (op : Op) : (step s op).stream.Fit := by
  cases op with
  | read cap fuel =>
    simp only [step]
    split
    · next hr => exact BidirectionalChaosStream.pollRead_fit h hr
    · exact h
  | write bytes => exact BidirectionalChaosStream.fitRule.pollWrite (BidirectionalChaosStream.updatePolicies_fit h _) _
  | writeVectored bufs =>
    exact BidirectionalChaosStream.fitRule.pollWrite (BidirectionalChaosStream.updatePolicies_fit h _) _
  | flush => exact BidirectionalChaosStream.fitRule.pollFlush (BidirectionalChaosStream.updatePolicies_fit h _)
  | shutdown => exact BidirectionalChaosStream.fitRule.pollShutdown (BidirectionalChaosStream.updatePolicies_fit h _)
  | publishUpstream plan seed => exact ⟨h.upstream, h.downstream⟩
  | publishDownstream plan seed => exact ⟨h.upstream, h.downstream⟩

theorem Reachable.fit {s : BidirectionalRun τ} (h : Reachable s) : s.stream.Fit := by
  obtain ⟨s₀, ops, hs, rfl⟩ := h
  obtain ⟨_, _, _, _, _, _, _, -, -, -, hu, hd, -⟩ := hs.engines
  refine run_inv (fun s : BidirectionalRun τ => s.stream.Fit) (fun _ op hs => step_fit hs op) ⟨?_, ?_⟩ ops
  · rw [hu]; exact DirectionEngine.compile_healthy _ _ _ _
  · rw [hd]; exact DirectionEngine.compile_healthy _ _ _ _

end BidirectionalRun

end Eggchaos
