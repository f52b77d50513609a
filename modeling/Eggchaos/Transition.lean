import Eggchaos.BidirectionalRuns
/-!
# What a transition keeps

A transition to a newer generation drives what the old engine has queued and
replaces the engine unless that drive is pending. A drive that ends in an error
is not pending: the engine is replaced with bytes still queued, and these are
gone. Exactly then a transition forgets owned bytes.

The capture writer of the downstream direction never fails, so that direction
always keeps its bytes.
-/

namespace Eggchaos
open Lib

namespace DirectionEngine
section
variable {τ : Type} [AsyncWrite τ]

/-- Driving the queue over `inner` ends in an error. -/
def DriveFails (e : DirectionEngine) (inner : τ) (c : Clock) : Prop := (e.pollQueue inner c).1.isError = true

instance (e : DirectionEngine) (inner : τ) (c : Clock) : Decidable (e.DriveFails inner c) :=
  inferInstanceAs (Decidable ((e.pollQueue inner c).1.isError = true))

theorem pollQueue_of_nil {e : DirectionEngine} (h : e.queue = []) (inner : τ) (c : Clock) :
    e.pollQueue inner c = (.ready (.ok ()), e, inner, c) := by
  simp only [pollQueue, pollQueueLoop, h]

/-- A failed drive does not hold the transition up. -/
theorem DriveFails.not_held {e : DirectionEngine} {inner : τ} {c : Clock} (h : e.DriveFails inner c) :
    (e.barrier inner c).1 = false := by
  unfold barrier
  split
  · rfl
  · simp only [pollFlush]
    unfold DriveFails at h
    generalize e.pollQueue inner c = r at *
    obtain ⟨outcome, e', inner', c'⟩ := r
    match outcome, h with
    | .ready (.error error), _ => rfl

variable [RecordsWrites τ]

/-- A flush that succeeds leaves nothing queued. -/
theorem pollFlush_ok {e : DirectionEngine} {inner : τ} {c : Clock} (h : (e.pollFlush inner c).1 = .ready (.ok ())) :
    (e.pollFlush inner c).2.1.queue = [] := by
  have hready := (e.pollQueue_driven inner c).ready
  unfold pollFlush at h ⊢
  split at h
  · next hq =>
    rw [hq] at hready
    simpa using hready
  · next hno =>
    generalize e.pollQueue inner c = r at *
    obtain ⟨outcome, e', inner', c'⟩ := r
    simp only at h
    exact absurd (by rw [h]) (hno e' inner' c')

/-- A flush that is not pending leaves bytes queued exactly if the drive failed. -/
theorem pollFlush_settled (e : DirectionEngine) (inner : τ) (c : Clock)
    (h : (e.pollFlush inner c).1.isPending = false) :
    (e.pollFlush inner c).2.1.queue = [] ↔ ¬ e.DriveFails inner c := by
  have hready := (e.pollQueue_driven inner c).ready
  unfold pollFlush at h ⊢
  unfold DriveFails
  split
  · next e' inner' c' hq =>
    rw [hq] at hready ⊢
    simpa using hready
  · next hno =>
    generalize e.pollQueue inner c = r at *
    obtain ⟨outcome, e', inner', c'⟩ := r
    match outcome, hno with
    | .ready (.ok ()), hno => exact absurd rfl (hno e' inner' c')
    | .ready (.error error), _ =>
      simpa using hready
    | .pending, _ => simp at h

/-- When the barrier does not hold the transition up, bytes stay behind exactly if
the drive failed. -/
theorem barrier_settled (e : DirectionEngine) (inner : τ) (c : Clock) (h : (e.barrier inner c).1 = false) :
    (e.barrier inner c).2.1.queue = [] ↔ ¬ e.DriveFails inner c := by
  unfold barrier at h ⊢
  split
  · next hq =>
    have hnil : e.queue = [] := by simpa [queueIsEmpty] using hq
    simp [hnil, DriveFails, pollQueue_of_nil]
  · next hq =>
    rw [if_neg hq] at h
    exact e.pollFlush_settled inner c h

/-- Replacing the engine behind the barrier keeps every queued byte exactly if
the drive did not fail: all that was queued has reached the writer. -/
theorem barrier_keeps_iff {e : DirectionEngine} (h : e.Healthy) (inner : τ) (c : Clock)
    (hheld : (e.barrier inner c).1 = false) :
    RecordsWrites.log (e.barrier inner c).2.2.1 = RecordsWrites.log inner ++ e.queuedBytes ↔
      ¬ e.DriveFails inner c := by
  obtain ⟨out, hp, hlog⟩ := e.barrier_passed inner c
  rw [← e.barrier_settled inner c hheld, hlog, List.append_cancel_left_eq, queuedBytes_eq, hp.bytes]
  constructor
  · intro heq
    apply (hp.solid h.solid).eq_nil
    simpa using heq
  · intro hnil
    rw [hnil]
    simp

end

/-! ## The capture writer -/

/-- The capture writer takes every segment whole, so a drive never fails. -/
theorem pollQueueLoop_capture (fuel : Nat) {e : DirectionEngine} (hs : Solid e.queue) (w : CaptureWriter) (c : Clock) :
    (pollQueueLoop fuel e w c).1.isError = false := by
  induction fuel generalizing e w c with
  | zero => simp [pollQueueLoop]
  | succ fuel ih =>
    simp only [pollQueueLoop]
    split
    · simp
    next front rest hq =>
    generalize (if c.now < front.release then e.queueTimer.poll c.tick c.now front.release
      else (Poll.ready (), e.queueTimer, c.tick)) = held
    split
    · simp
    have hpos : front.bytes.length ≠ 0 := by
      have := hs front (by simp [hq])
      simpa using this
    simp only [AsyncWrite.pollWrite, hpos, if_false, Nat.lt_irrefl, if_true]
    apply ih
    intro s hs'
    exact hs s (by simp [hq, hs'])

theorem capture_never_fails {e : DirectionEngine} (hs : Solid e.queue) (w : CaptureWriter) (c : Clock) :
    ¬ e.DriveFails w c := by
  simp [DriveFails, pollQueue, pollQueueLoop_capture _ hs w c]

end DirectionEngine

/-! ## Streams -/

/-- The bytes a writer has taken followed by those an engine still owns. -/
def owned {τ : Type} [AsyncWrite τ] [RecordsWrites τ] (inner : τ) (engine : DirectionEngine) : List Byte :=
  RecordsWrites.log inner ++ engine.queuedBytes

theorem replace_queuedBytes (old : DirectionEngine) (snapshot : PublishedPolicy) (proxy : String) (key : UInt64)
    (direction : Direction) (c : Clock) : (old.replace snapshot proxy key direction c).1.queuedBytes = [] := rfl

namespace ChaosStream
variable {τ : Type} [AsyncWrite τ] [RecordsWrites τ]

theorem updateLive_keeps_iff {s : ChaosStream τ} (h : s.engine.Healthy) (c : Clock) :
    owned (s.updateLive c).2.1.inner (s.updateLive c).2.1.engine = owned s.inner s.engine ↔
      s.newerPolicy = none ∨ ¬ s.engine.DriveFails s.inner c := by
  unfold updateLive
  split
  · next hn => simp [hn]
  · next snapshot hn =>
    obtain ⟨out, hp, hlog⟩ := s.engine.barrier_passed s.inner c
    simp only [hn, reduceCtorEq, false_or]
    split
    · next hheld =>
      have hnot : ¬ s.engine.DriveFails s.inner c := fun hf => by simp [hf.not_held] at hheld
      simp only [hnot, not_false_eq_true, iff_true, owned, hlog, List.append_assoc]
      rw [DirectionEngine.queuedBytes_eq, DirectionEngine.queuedBytes_eq, hp.bytes]
    · next hheld =>
      have hfree : (s.engine.barrier s.inner c).1 = false := by simpa using hheld
      simp only [transition, owned, replace_queuedBytes, List.append_nil]
      exact DirectionEngine.barrier_keeps_iff h s.inner c hfree

end ChaosStream

namespace BidirectionalChaosStream

section
variable {τ : Type}

/-- The downstream half keeps what it has captured and queued, and does not
touch the other half. -/
theorem updateDownstream_keeps {s : BidirectionalChaosStream τ} (h : s.downstream.Healthy) (c : Clock) :
    (s.updateDownstream c).2.1.output ++ (s.updateDownstream c).2.1.downstream.queuedBytes =
        s.output ++ s.downstream.queuedBytes ∧
      (s.updateDownstream c).2.1.upstream = s.upstream ∧ (s.updateDownstream c).2.1.inner = s.inner ∧
      (s.updateDownstream c).2.1.pendingDownstream = s.pendingDownstream := by
  unfold updateDownstream
  split
  · exact ⟨rfl, rfl, rfl, rfl⟩
  · simp only
    split
    · exact ⟨rfl, rfl, rfl, rfl⟩
    · obtain ⟨out, hp, hlog⟩ := s.downstream.barrier_passed (CaptureWriter.mk s.output) c
      split
      · refine ⟨?_, rfl, rfl, rfl⟩
        rw [DirectionEngine.queuedBytes_eq, DirectionEngine.queuedBytes_eq, hp.bytes, ← List.append_assoc]
        exact congrArg (· ++ _) hlog
      · next hheld =>
        refine ⟨?_, rfl, rfl, rfl⟩
        rw [replace_queuedBytes, List.append_nil]
        exact (DirectionEngine.barrier_keeps_iff h _ c (by simpa using hheld)).2
          (DirectionEngine.capture_never_fails h.solid _ c)

end

section
variable {τ : Type} [AsyncWrite τ] [RecordsWrites τ]

/-- The upstream half keeps its bytes unless the drive fails, and does not touch
the other half. -/
theorem updateUpstream_keeps_iff {s : BidirectionalChaosStream τ} (h : s.upstream.Healthy) (c : Clock) :
    (owned (s.updateUpstream c).2.1.inner (s.updateUpstream c).2.1.upstream = owned s.inner s.upstream ↔
        LivePolicy.newer s.upstreamPolicy s.observedUpstream = none ∨ ¬ s.upstream.DriveFails s.inner c) ∧
      (s.updateUpstream c).2.1.downstream = s.downstream ∧ (s.updateUpstream c).2.1.output = s.output ∧
      (s.updateUpstream c).2.1.pendingDownstream = s.pendingDownstream := by
  unfold updateUpstream
  split
  · next hn => simp [hn]
  · next snapshot hn =>
    obtain ⟨out, hp, hlog⟩ := s.upstream.barrier_passed s.inner c
    simp only [hn, reduceCtorEq, false_or]
    split
    · next hheld =>
      have hnot : ¬ s.upstream.DriveFails s.inner c := fun hf => by simp [hf.not_held] at hheld
      simp only [hnot, not_false_eq_true, iff_true, owned, hlog, List.append_assoc, and_self, and_true]
      rw [DirectionEngine.queuedBytes_eq, DirectionEngine.queuedBytes_eq, hp.bytes]
    · next hheld =>
      have hfree : (s.upstream.barrier s.inner c).1 = false := by simpa using hheld
      simp only [owned, replace_queuedBytes, List.append_nil, and_self, and_true]
      exact DirectionEngine.barrier_keeps_iff h s.inner c hfree

theorem updatePolicies_keeps_iff {s : BidirectionalChaosStream τ} (h : s.Fit) (c : Clock) :
    (owned (s.updatePolicies c).2.1.inner (s.updatePolicies c).2.1.upstream = owned s.inner s.upstream ∧
        (s.updatePolicies c).2.1.output ++ (s.updatePolicies c).2.1.downstream.queuedBytes =
          s.output ++ s.downstream.queuedBytes) ↔
      LivePolicy.newer s.upstreamPolicy s.observedUpstream = none ∨ ¬ s.upstream.DriveFails s.inner c := by
  obtain ⟨hiff, hd, ho, -⟩ := updateUpstream_keeps_iff h.upstream c
  rw [← hiff]
  unfold updatePolicies
  split
  · next hr =>
    rw [hr] at hd ho ⊢
    simp only at hd ho ⊢
    rw [hd, ho]
    simp
  · next s' c' hr =>
    rw [hr] at hd ho ⊢
    simp only at hd ho
    obtain ⟨hkeep, hup, hin, -⟩ := updateDownstream_keeps (s := s') (hd ▸ h.downstream) c'
    rw [hd, ho] at hkeep
    split
    · next hr' =>
      rw [hr'] at hkeep hup hin
      simp only at hkeep hup hin ⊢
      rw [hup, hin, hkeep]
      simp
    · next hr' =>
      rw [hr'] at hkeep hup hin
      simp only at hkeep hup hin ⊢
      rw [hup, hin, hkeep]
      simp

end

end BidirectionalChaosStream

/-! ## The condition -/

/-- In every reachable state of either kind of stream, a transition keeps every
byte the engines own exactly if there is no newer generation for the write
direction or the drive of its queue does not fail. -/
theorem transition_keeps_owned_iff {τ : Type} [AsyncWrite τ] [AsyncRead τ] :
    (∀ s : StreamRun τ, s.Reachable →
      (owned (s.stream.updateLive s.clock).2.1.inner (s.stream.updateLive s.clock).2.1.engine =
          owned s.stream.inner s.stream.engine ↔
        s.stream.newerPolicy = none ∨ ¬ s.stream.engine.DriveFails s.stream.inner s.clock)) ∧
    (∀ s : BidirectionalRun τ, s.Reachable →
      let r := (s.stream.updatePolicies s.clock).2.1
      ((owned r.inner r.upstream = owned s.stream.inner s.stream.upstream ∧
          r.output ++ r.downstream.queuedBytes = s.stream.output ++ s.stream.downstream.queuedBytes) ↔
        LivePolicy.newer s.stream.upstreamPolicy s.stream.observedUpstream = none ∨
          ¬ s.stream.upstream.DriveFails s.stream.inner s.clock)) :=
  ⟨fun _ h => ChaosStream.updateLive_keeps_iff h.healthy _,
    fun _ h => BidirectionalChaosStream.updatePolicies_keeps_iff h.fit _⟩

/-- Two bytes under latency, a writer that answers `answers`, and the empty plan
published when the bytes are due. -/
def swapRun (answers : List (Poll (IoResult Nat))) : StreamRun Script :=
  run StreamRun.step (StreamRun.scripted { writes := answers } StreamRun.slowPlan StreamRun.slowPlan_valid (.jump 6 2000000))
    [.write [1, 2], .publish .empty 0]

theorem swapRun_reachable (answers : List (Poll (IoResult Nat))) : (swapRun answers).Reachable :=
  StreamRun.start_reachable _ _ _ _ _ _ _

theorem transition_keeps_owned_partial_write :
    let s := swapRun [.ready (.ok 1), .pending]
    owned (s.stream.updateLive s.clock).2.1.inner (s.stream.updateLive s.clock).2.1.engine = [1, 2] :=
  ((transition_keeps_owned_iff.1 _ (swapRun_reachable [.ready (.ok 1), .pending])).2
    (.inr (by decide))).trans (by decide)

/-- The writer fails during the barrier: the engine is replaced all the same, and
both queued bytes are gone. -/
theorem failed_drive_forgets :
    ¬ ∀ s : StreamRun Script, s.Reachable →
        owned (s.stream.updateLive s.clock).2.1.inner (s.stream.updateLive s.clock).2.1.engine =
          owned s.stream.inner s.stream.engine := by
  intro h
  have := h _ (swapRun_reachable [.ready (.error ⟨.other 0, "broken pipe"⟩)])
  exact absurd this (by decide)

end Eggchaos
