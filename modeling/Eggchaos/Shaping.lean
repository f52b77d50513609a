import Eggchaos.ConnectionSeeds
import Eggchaos.Joined
import Mathlib.Data.List.Chain
/-!
# Shaping segments

What the slicers, the latencies, the token bucket and the slice cursor make of
accepted bytes, over the whole life of an engine. `Lived` is `Joined`'s notion
of a reachable engine together with every segment it has queued so far, and
`Paced` the invariant: each draw belongs to a fault of the plan, and the slice
cursor stands a whole slice delay behind the last segment.

`segments_shaped` is the reference: it names the stages of the plan and says
nothing of how the loop composes them.
-/

namespace Eggchaos
open Lib

/-! ## The stages of a plan -/

namespace DirectionEngine.Identity

/-- The latency of the fault, if it is an active one. -/
def latency (ident : Identity) (fault : FaultSpec) : Option LatencyConfig :=
  match fault.kind with
  | .latency c => if ident.active fault then some c else none
  | _ => none

/-- The slicer of the fault, if it is an active one. -/
def slice (ident : Identity) (fault : FaultSpec) : Option SliceConfig :=
  match fault.kind with
  | .slice c => if ident.active fault then some c else none
  | _ => none

/-- Whether the fault is an active bandwidth limit. -/
def throttles (ident : Identity) (fault : FaultSpec) : Bool :=
  ident.active fault && fault.kind matches .bandwidth _

def latencies (ident : Identity) (plan : FaultPlan) : List LatencyConfig := plan.faults.filterMap ident.latency

def slices (ident : Identity) (plan : FaultPlan) : List SliceConfig := plan.faults.filterMap ident.slice

/-- A fault is an active latency, an active slicer, or none of the two. -/
theorem stage_cases (ident : Identity) (fault : FaultSpec) :
    (∃ c, fault.kind = .latency c ∧ ident.active fault = true ∧ ident.latency fault = some c ∧
      ident.slice fault = none) ∨
    (∃ c, fault.kind = .slice c ∧ ident.active fault = true ∧ ident.latency fault = none ∧
      ident.slice fault = some c) ∨
    (ident.latency fault = none ∧ ident.slice fault = none) := by
  unfold latency slice
  cases hactive : ident.active fault with
  | false => cases hkind : fault.kind <;> simp
  | true => cases hkind : fault.kind <;> simp

end DirectionEngine.Identity

/-- The largest delay of the slicers, zero where there is none. -/
def largestDelay (slices : List SliceConfig) : Nat := (slices.map (·.delay)).foldr max 0

/-- What a jitter of `j` makes of the latency. -/
def LatencyConfig.jittered (c : LatencyConfig) (j : Int) : Nat := (max 0 ((c.delay : Int) + j)).toNat

/-- The most the latencies can add. -/
def longestLatency (latencies : List LatencyConfig) : Nat := (latencies.map fun c => c.delay + c.jitter).sum

namespace DirectionEngine

variable {ident : Identity} {plan : FaultPlan}

/-! ## Reference -/

/-- A length that the slicers allow a segment with bytes behind it: between the
least of their least sizes and the least of their greatest sizes. -/
def Sized (slices : List SliceConfig) (n : Nat) : Prop :=
  ∃ least greatest, (slices.map fun c => c.averageSize.get - c.variation).min? = some least ∧
    (slices.map fun c => c.averageSize.get + c.variation).min? = some greatest ∧
    1 ≤ least ∧ least ≤ n ∧ n ≤ greatest

/-- `total` is what the latencies add under jitters they allow. -/
def Jittered (latencies : List LatencyConfig) (total : Nat) : Prop :=
  ∃ jitters : List Int, List.Forall₂ (fun c j => |j| ≤ (c.jitter : Int)) latencies jitters ∧
    total = (List.zipWith LatencyConfig.jittered latencies jitters).sum

/-- A release no earlier than the latencies make it, and no later without a
bandwidth limit and a slice delay. -/
def Delayed (ident : Identity) (plan : FaultPlan) (now release : Nat) : Prop :=
  ∃ total, Jittered (ident.latencies plan) total ∧ now + total ≤ release ∧
    (plan.faults.any ident.throttles = false → largestDelay (ident.slices plan) = 0 → release = now + total)

/-- Releases in order, each at least `gap` after the one before. -/
def Spaced (gap : Nat) (segments : List Queued) : Prop := segments.IsChain fun a b => a.release + gap ≤ b.release

/-- What the call has put behind the queue. -/
def queuedBy (e e' : DirectionEngine) : List Queued := e'.queue.drop e.queue.length

/-- The engines compiled for the plan and their later states, each with every
segment queued so far. -/
inductive Lived (plan : FaultPlan) (ident : Identity) : DirectionEngine → List Queued → Prop
  | newWithArcPlan (handle : TerminationHandle) (c : Clock) {c' e}
      (h : newWithArcPlan plan ident handle c = (.ok e, c')) : Lived plan ident e []
  | accept {e pushed} (h : Lived plan ident e pushed) (c : Clock) (input : List Byte) :
      Lived plan ident (e.accept c input).2.1 (pushed ++ e.queuedBy (e.accept c input).2.1)
  | acceptVectored {e pushed} (h : Lived plan ident e pushed) (c : Clock) (bufs : List (List Byte)) :
      Lived plan ident (e.acceptVectored c bufs).2.1 (pushed ++ e.queuedBy (e.acceptVectored c bufs).2.1)
  | pollFlush {e pushed} {τ : Type} [AsyncWrite τ] (h : Lived plan ident e pushed) (inner : Tap τ) (c : Clock) :
      Lived plan ident (e.pollFlush inner c).2.1 pushed
  | pollShutdown {e pushed} {τ : Type} [AsyncWrite τ] (h : Lived plan ident e pushed) (inner : Tap τ) (c : Clock) :
      Lived plan ident (e.pollShutdown inner c).2.1 pushed
  | pollDueTermination {e pushed} (h : Lived plan ident e pushed) (c : Clock) :
      Lived plan ident (e.pollDueTermination c).2.1 pushed
  | refreshSyncTerminations {e pushed} (h : Lived plan ident e pushed) (c : Clock) :
      Lived plan ident (e.refreshSyncTerminations c).1 pushed
  | absorbEvidence {e pushed} (h : Lived plan ident e pushed) (previous : EngineEvidence) :
      Lived plan ident (e.absorbEvidence previous) pushed
  /-- Another holder of the handle publishes. -/
  | publish {e pushed} (h : Lived plan ident e pushed) (info : TerminationInfo) :
      Lived plan ident { e with termHandle := e.termHandle.publish info } pushed

/-! ## Draws -/

/-- Each generator belongs to its fault. -/
def Aligned (ident : Identity) (faults : List FaultSpec) (rngs : List (Bool × DeterministicRng)) : Prop :=
  List.Forall₂ (fun fault r => r.1 = ident.active fault) faults rngs

/-- What a validated slicer promises. -/
theorem slice_valid {fault : FaultSpec} (h : fault.validate = .ok ()) {c : SliceConfig}
    (hc : ident.slice fault = some c) : c.variation < c.averageSize.get ∧ c.delay ≤ maxStreamFaultDuration := by
  have hkind : fault.kind = .slice c := by
    rcases ident.stage_cases fault with ⟨_, -, -, -, hs⟩ | ⟨c', hk, -, -, hs⟩ | ⟨-, hs⟩
    · cases hs.symm.trans hc
    · cases hs.symm.trans hc
      exact hk
    · cases hs.symm.trans hc
  have hsound := FaultSpec.validate_iff.1 h
  exact ⟨hsound.variation c hkind, hsound.durations c.delay (by simp [hkind, FaultKind.durations])⟩

theorem latency_valid {fault : FaultSpec} (h : fault.validate = .ok ()) {c : LatencyConfig}
    (hc : ident.latency fault = some c) : c.delay ≤ maxStreamFaultDuration ∧ c.jitter ≤ maxStreamFaultDuration := by
  have hkind : fault.kind = .latency c := by
    rcases ident.stage_cases fault with ⟨c', hk, -, hl, -⟩ | ⟨_, -, -, hl, -⟩ | ⟨hl, -⟩
    · cases hl.symm.trans hc
      exact hk
    · cases hl.symm.trans hc
    · cases hl.symm.trans hc
  have hdurations := (FaultSpec.validate_iff.1 h).durations
  rw [hkind] at hdurations
  exact ⟨hdurations c.delay (by simp [FaultKind.durations]), hdurations c.jitter (by simp [FaultKind.durations])⟩

theorem sliceSizes_slice {fault : FaultSpec} {c : SliceConfig} (h : fault.kind = .slice c) (faults : List FaultSpec)
    (rng : DeterministicRng) (rngs : List (Bool × DeterministicRng)) (size : Nat) :
    ∃ stage rng', c.averageSize.get - c.variation ≤ stage ∧
      stage ≤ max (c.averageSize.get - c.variation + 2 * c.variation) 1 ∧
      sliceSizes (fault :: faults) ((true, rng) :: rngs) size =
        ((sliceSizes faults rngs (min size stage)).1, (true, rng') :: (sliceSizes faults rngs (min size stage)).2) := by
  have hpos : 0 < satAdd (satMul c.variation 2) 1 := by
    simp only [satAdd, satMul, clampU64, u64Max]
    omega
  have hdraw := rng.below_lt hpos
  have hmax := c.averageSize.le_max
  refine ⟨_, _, ?_, ?_, by simp only [sliceSizes, h]; rfl⟩
  · simp only [satAdd, satMul, clampU64] at hdraw ⊢
    omega
  · simp only [satAdd, satMul, clampU64] at hdraw ⊢
    omega

theorem sliceSizes_other {fault : FaultSpec} (h : ident.slice fault = none) (faults : List FaultSpec)
    (rng : DeterministicRng) (rngs : List (Bool × DeterministicRng)) (size : Nat) :
    sliceSizes (fault :: faults) ((ident.active fault, rng) :: rngs) size =
      ((sliceSizes faults rngs size).1, (ident.active fault, rng) :: (sliceSizes faults rngs size).2) := by
  unfold Identity.slice at h
  cases hactive : ident.active fault with
  | false => simp only [sliceSizes]
  | true =>
    cases hkind : fault.kind with
    | slice c => simp [hkind, hactive] at h
    | _ => simp only [sliceSizes, hkind]

theorem sliceSizes_spec {faults : List FaultSpec} {rngs : List (Bool × DeterministicRng)}
    (h : Aligned ident faults rngs) (hvalid : ∀ fault ∈ faults, fault.validate = .ok ()) (size : Nat) :
    Aligned ident faults (sliceSizes faults rngs size).2 ∧ (sliceSizes faults rngs size).1 ≤ size ∧
      (∀ c ∈ faults.filterMap ident.slice, (sliceSizes faults rngs size).1 ≤ c.averageSize.get + c.variation) ∧
      ((sliceSizes faults rngs size).1 = size ∨
        ∃ c ∈ faults.filterMap ident.slice, c.averageSize.get - c.variation ≤ (sliceSizes faults rngs size).1) := by
  induction h generalizing size with
  | nil => exact ⟨.nil, le_rfl, by simp, .inl rfl⟩
  | @cons fault r faults rngs hr _ ih =>
    obtain ⟨active, rng⟩ := r
    obtain rfl : active = ident.active fault := hr
    have ih := ih fun fault' hmem => hvalid fault' (List.mem_cons_of_mem _ hmem)
    cases hslice : ident.slice fault with
    | none =>
      obtain ⟨haligned, hle, hupper, hlower⟩ := ih size
      rw [sliceSizes_other hslice, List.filterMap_cons_none hslice]
      exact ⟨.cons rfl haligned, hle, hupper, hlower⟩
    | some c =>
      rcases ident.stage_cases fault with ⟨_, -, -, -, hs⟩ | ⟨c', hkind, hactive, -, hs⟩ | ⟨-, hs⟩
      · cases hs.symm.trans hslice
      · cases hs.symm.trans hslice
        have hvariation := (slice_valid (hvalid fault (List.mem_cons_self ..)) hslice).1
        obtain ⟨stage, rng', hlow, hhigh, heq⟩ := sliceSizes_slice hkind faults rng rngs size
        obtain ⟨haligned, hle, hupper, hlower⟩ := ih (min size stage)
        rw [hactive, heq, List.filterMap_cons_some hslice]
        refine ⟨.cons hactive.symm haligned, by simp only; omega, ?_, ?_⟩
        · rw [List.forall_mem_cons]
          exact ⟨by simp only; omega, hupper⟩
        · rcases hlower with hsize | ⟨c', hmem, hc'⟩
          · rcases Nat.le_total size stage with hle' | hle'
            · exact .inl (by simp only; omega)
            · exact .inr ⟨c, List.mem_cons_self .., by simp only; omega⟩
          · exact .inr ⟨c', List.mem_cons_of_mem _ hmem, hc'⟩
      · cases hs.symm.trans hslice

/-! ## Stages -/

/-- The latency of a stage is its delay under a jitter it allows. -/
theorem latencyNanos_spec {c : LatencyConfig} (hdelay : c.delay ≤ maxStreamFaultDuration)
    (hjitter : c.jitter ≤ maxStreamFaultDuration) (rng : DeterministicRng) :
    ∃ j : Int, |j| ≤ (c.jitter : Int) ∧ (latencyNanos c rng).1 = c.jittered j := by
  have hday : maxStreamFaultDuration * 4 ≤ u64Max := by decide
  have hrange : min c.jitter u64Max = c.jitter := by omega
  unfold latencyNanos LatencyConfig.jittered
  simp only [hrange]
  by_cases hzero : c.jitter = 0
  · refine ⟨0, by simp [hzero], ?_⟩
    simp only [hzero, if_true]
    omega
  · rw [if_neg hzero]
    have hspan : satAdd (satMul c.jitter 2) 1 = 2 * c.jitter + 1 := by
      simp only [satAdd, satMul, clampU64]
      omega
    have hdraw := rng.below_lt (show 0 < 2 * c.jitter + 1 by omega)
    rw [hspan]
    refine ⟨((rng.below (2 * c.jitter + 1)).1 : Int) - c.jitter, ?_, ?_⟩
    · rw [abs_le]
      omega
    · simp only
      omega

theorem jittered_le {c : LatencyConfig} {j : Int} (h : |j| ≤ (c.jitter : Int)) : c.jittered j ≤ c.delay + c.jitter := by
  have hj := (abs_le.1 h).2
  unfold LatencyConfig.jittered
  omega

theorem stageSegment_latency {fault : FaultSpec} {c : LatencyConfig} (h : fault.kind = .latency c)
    (faults : List FaultSpec) (rng : DeterministicRng) (rngs : List (Bool × DeterministicRng)) (acc : Staged) :
    ∃ acc' rng', acc'.sliceDelay = acc.sliceDelay ∧
      acc'.release = (checkedAdd acc.release (latencyNanos c rng).1).getD (acc.release + maxStreamFaultDuration) ∧
      stageSegment (fault :: faults) ((true, rng) :: rngs) acc =
        ((stageSegment faults rngs acc').1, (true, rng') :: (stageSegment faults rngs acc').2) := by
  refine ⟨_, _, ?_, ?_, by simp only [stageSegment, h]; rfl⟩
  · rfl
  · rfl

theorem stageSegment_slice {fault : FaultSpec} {c : SliceConfig} (h : fault.kind = .slice c)
    (faults : List FaultSpec) (rng : DeterministicRng) (rngs : List (Bool × DeterministicRng)) (acc : Staged) :
    ∃ acc', acc'.sliceDelay = max acc.sliceDelay c.delay ∧ acc'.release = acc.release ∧
      stageSegment (fault :: faults) ((true, rng) :: rngs) acc =
        ((stageSegment faults rngs acc').1, (true, rng) :: (stageSegment faults rngs acc').2) := by
  refine ⟨_, ?_, ?_, by simp only [stageSegment, h]; rfl⟩
  · rfl
  · rfl

theorem stageSegment_other {fault : FaultSpec} (hlatency : ident.latency fault = none)
    (hslice : ident.slice fault = none) (faults : List FaultSpec) (rng : DeterministicRng)
    (rngs : List (Bool × DeterministicRng)) (acc : Staged) :
    stageSegment (fault :: faults) ((ident.active fault, rng) :: rngs) acc =
      ((stageSegment faults rngs acc).1, (ident.active fault, rng) :: (stageSegment faults rngs acc).2) := by
  unfold Identity.latency at hlatency
  unfold Identity.slice at hslice
  cases hactive : ident.active fault with
  | false => simp only [stageSegment]
  | true =>
    cases hkind : fault.kind with
    | latency c => simp [hkind, hactive] at hlatency
    | slice c => simp [hkind, hactive] at hslice
    | _ => simp only [stageSegment, hkind]

/-- The stages of a segment: the largest slice delay, and a release that the
latencies put off as far as instants go. -/
theorem stageSegment_spec {faults : List FaultSpec} {rngs : List (Bool × DeterministicRng)}
    (h : Aligned ident faults rngs) (hvalid : ∀ fault ∈ faults, fault.validate = .ok ()) (acc : Staged) :
    Aligned ident faults (stageSegment faults rngs acc).2 ∧
      (stageSegment faults rngs acc).1.sliceDelay =
        max acc.sliceDelay (largestDelay (faults.filterMap ident.slice)) ∧
      (acc.release + longestLatency (faults.filterMap ident.latency) ≤ maxInstant →
        ∃ total, Jittered (faults.filterMap ident.latency) total ∧
          (stageSegment faults rngs acc).1.release = acc.release + total) := by
  induction h generalizing acc with
  | nil => exact ⟨.nil, (Nat.max_zero _).symm, fun _ => ⟨0, ⟨[], .nil, rfl⟩, rfl⟩⟩
  | @cons fault r faults rngs hr _ ih =>
    obtain ⟨active, rng⟩ := r
    obtain rfl : active = ident.active fault := hr
    have hfault := hvalid fault (List.mem_cons_self ..)
    have ih := ih fun fault' hmem => hvalid fault' (List.mem_cons_of_mem _ hmem)
    rcases ident.stage_cases fault with ⟨c, hkind, hactive, hl, hs⟩ | ⟨c, hkind, hactive, hl, hs⟩ | ⟨hl, hs⟩
    -- A latency puts the release off.
    · obtain ⟨hdelay, hjitter⟩ := latency_valid hfault hl
      obtain ⟨acc', rng', hslice, hrelease, heq⟩ := stageSegment_latency hkind faults rng rngs acc
      obtain ⟨haligned, hlargest, hlater⟩ := ih acc'
      rw [hactive, heq, List.filterMap_cons_some hl, List.filterMap_cons_none hs]
      refine ⟨.cons hactive.symm haligned, by rw [hlargest, hslice], fun hfits => ?_⟩
      obtain ⟨j, hj, hnanos⟩ := latencyNanos_spec hdelay hjitter rng
      have hle := jittered_le hj
      simp only [longestLatency, List.map_cons, List.sum_cons] at hfits hlater
      have hnow : acc'.release = acc.release + c.jittered j := by
        rw [hrelease, hnanos, checkedAdd, if_pos (by omega)]
        rfl
      obtain ⟨total, ⟨jitters, hjitters, rfl⟩, htotal⟩ := hlater (by omega)
      refine ⟨_, ⟨j :: jitters, .cons hj hjitters, rfl⟩, ?_⟩
      rw [htotal, hnow, Nat.add_assoc]
      rfl
    -- A slicer has its delay counted.
    · obtain ⟨acc', hslice, hrelease, heq⟩ := stageSegment_slice hkind faults rng rngs acc
      obtain ⟨haligned, hlargest, hlater⟩ := ih acc'
      rw [hactive, heq, List.filterMap_cons_none hl, List.filterMap_cons_some hs]
      refine ⟨.cons hactive.symm haligned, ?_, ?_⟩
      · rw [hlargest, hslice, Nat.max_assoc]
        rfl
      · rwa [hrelease] at hlater
    · obtain ⟨haligned, hlargest, hlater⟩ := ih acc
      rw [stageSegment_other hl hs, List.filterMap_cons_none hl, List.filterMap_cons_none hs]
      exact ⟨.cons rfl haligned, hlargest, hlater⟩

/-! ## Throttling and staggering -/

theorem consume_release_ge (bucket : TokenBucket) (len now earliest : Nat) :
    earliest ≤ (bucket.consume len now earliest).1 := by
  simp only [TokenBucket.consume]
  split
  · exact Nat.le_max_left _ _
  · exact (Nat.le_max_left _ _).trans (Nat.le_max_left _ _)

theorem staggerSegment_idle (e : DirectionEngine) (release : Nat) : e.staggerSegment 0 release = (release, e) := by
  unfold staggerSegment
  rw [if_neg (fun h => h.2 rfl)]

/-- A slice delay puts the cursor that much behind the release. -/
theorem staggerSegment_active {e : DirectionEngine} (h : e.slicerActive = true) {delay : Nat} (hpos : 0 < delay)
    (hday : delay ≤ maxStreamFaultDuration) (release : Nat) :
    e.staggerSegment delay release =
      (max release e.sliceCursor, { e with sliceCursor := max release e.sliceCursor + delay }) := by
  have hcursor : ∀ t, (checkedAdd t delay).getD (t + min maxStreamFaultDuration delay) = t + delay := by
    intro t
    rw [Nat.min_eq_right hday]
    unfold checkedAdd
    split
    · rfl
    · rfl
  unfold staggerSegment
  rw [if_pos ⟨h, by omega⟩]
  simp only [hcursor]

theorem largestDelay_le {slices : List SliceConfig} {bound : Nat} (h : ∀ c ∈ slices, c.delay ≤ bound) :
    largestDelay slices ≤ bound := by
  unfold largestDelay
  induction slices with
  | nil => exact Nat.zero_le _
  | cons c slices ih =>
    rw [List.forall_mem_cons] at h
    rw [List.map_cons, List.foldr_cons]
    exact max_le h.1 (ih h.2)

/-! ## The invariant -/

/-- The shaping state belongs to the plan, and to the segments queued so far. -/
structure Paced (ident : Identity) (plan : FaultPlan) (e : DirectionEngine) (pushed : List Queued) : Prop where
  samePlan : e.plan = plan
  aligned : Aligned ident plan.faults e.rngs
  slicer : e.slicerActive = !(ident.slices plan).isEmpty
  bandwidth : plan.faults.any ident.throttles = false → e.bandwidth = none
  blackhole : plan.faults.any ident.swallows = false → e.blackhole = none
  lossless : plan.faults.any ident.loses = false → e.lossy = false
  spaced : 0 < largestDelay (ident.slices plan) → Spaced (largestDelay (ident.slices plan)) pushed
  cursor : 0 < largestDelay (ident.slices plan) →
    ∀ segment ∈ pushed.getLast?, segment.release + largestDelay (ident.slices plan) ≤ e.sliceCursor

/-- What shaping looks at has not changed. -/
structure SameShaping (e e' : DirectionEngine) : Prop where
  plan : e'.plan = e.plan
  rngs : e'.rngs = e.rngs
  slicer : e'.slicerActive = e.slicerActive
  bandwidth : e'.bandwidth = e.bandwidth
  blackhole : e'.blackhole = e.blackhole
  states : e'.streamLoss = e.streamLoss
  cursor : e'.sliceCursor = e.sliceCursor

variable {e e' : DirectionEngine} {pushed : List Queued}

theorem Paced.same (h : Paced ident plan e pushed) (hsame : SameShaping e e') : Paced ident plan e' pushed where
  samePlan := hsame.plan.trans h.samePlan
  aligned := hsame.rngs ▸ h.aligned
  slicer := hsame.slicer.trans h.slicer
  bandwidth hno := hsame.bandwidth.trans (h.bandwidth hno)
  blackhole hno := hsame.blackhole.trans (h.blackhole hno)
  lossless hno := by
    rw [lossy, hsame.states]
    exact h.lossless hno
  spaced := h.spaced
  cursor := hsame.cursor ▸ h.cursor

theorem Published.sameShaping {infos} (h : Published e infos e') : SameShaping e e' := by
  obtain ⟨t, handle, ev, rfl, -⟩ := h.frame
  exact ⟨rfl, rfl, rfl, rfl, rfl, rfl, rfl⟩

theorem Spent.sameShaping {n : Nat} (h : Spent e e' n) : SameShaping e e' := by
  obtain ⟨limit, t, handle, request, acts, rfl⟩ := h.frame
  exact ⟨rfl, rfl, rfl, rfl, rfl, rfl, rfl⟩

theorem Passed.sameShaping {out : List Byte} (h : Passed e out e') : SameShaping e e' := by
  obtain ⟨_, _, _, _, _, _, _, hf⟩ := h.frame
  rw [hf]
  exact ⟨rfl, rfl, rfl, rfl, rfl, rfl, rfl⟩

/-- The bucket never lets a segment go earlier. -/
theorem Paced.throttle (h : Paced ident plan e pushed) (len now release : Nat) :
    let r := e.throttleSegment len now release
    release ≤ r.1 ∧ (plan.faults.any ident.throttles = false → r.1 = release) ∧ r.2.queue = e.queue ∧
      Paced ident plan r.2 pushed := by
  unfold throttleSegment
  cases hbandwidth : e.bandwidth with
  | none => exact ⟨le_rfl, fun _ => rfl, rfl, h⟩
  | some bucket =>
    have hthrottles : plan.faults.any ident.throttles ≠ false := by
      intro hno
      cases hbandwidth.symm.trans (h.bandwidth hno)
    exact ⟨consume_release_ge bucket len now release, fun hno => absurd hno hthrottles, rfl,
      h.samePlan, h.aligned, h.slicer, fun hno => absurd hno hthrottles, h.blackhole, h.lossless, h.spaced, h.cursor⟩

/-- The stagger puts a segment a slice delay behind the last one. -/
theorem Paced.stagger (h : Paced ident plan e pushed) (hvalid : plan.validate = .ok ()) (bytes : List Byte)
    (release : Nat) :
    let r := e.staggerSegment (largestDelay (ident.slices plan)) release
    release ≤ r.1 ∧ (largestDelay (ident.slices plan) = 0 → r.1 = release) ∧ r.2.queue = e.queue ∧
      Paced ident plan r.2 (pushed ++ [⟨bytes, r.1⟩]) := by
  rcases Nat.eq_zero_or_pos (largestDelay (ident.slices plan)) with hzero | hpos
  · simp only [hzero, staggerSegment_idle]
    exact ⟨le_rfl, fun _ => trivial, trivial, h.samePlan, h.aligned, h.slicer, h.bandwidth, h.blackhole, h.lossless,
      fun hpos => by omega, fun hpos => by omega⟩
  · have hslicer : e.slicerActive = true := by
      rw [h.slicer]
      cases hslices : ident.slices plan with
      | nil => simp [hslices, largestDelay] at hpos
      | cons c slices => rfl
    have hday : largestDelay (ident.slices plan) ≤ maxStreamFaultDuration := by
      refine largestDelay_le fun c hc => ?_
      obtain ⟨fault, hmem, hslice⟩ := List.mem_filterMap.1 hc
      exact (slice_valid (FaultPlan.validate_faults hvalid fault hmem) hslice).2
    simp only [staggerSegment_active hslicer hpos hday]
    refine ⟨Nat.le_max_left _ _, fun hzero => by omega, trivial, h.samePlan, h.aligned, h.slicer, h.bandwidth,
      h.blackhole, h.lossless, fun _ => ?_, fun _ => ?_⟩
    · refine List.isChain_append.2 ⟨h.spaced hpos, List.isChain_singleton _, ?_⟩
      intro last hlast next hnext
      obtain rfl : _ = next := by simpa using hnext
      exact (h.cursor hpos last hlast).trans (Nat.le_max_right _ _)
    · intro last hlast
      obtain rfl : _ = last := by simpa using hlast
      exact le_rfl

/-- One more segment. -/
theorem Paced.push (h : Paced ident plan e pushed) (hvalid : plan.validate = .ok ()) (bytes : List Byte) (now : Nat) :
    ∃ release, (e.pushSegment bytes now).2.2.queue = e.queue ++ [⟨bytes, release⟩] ∧
      Paced ident plan (e.pushSegment bytes now).2.2 (pushed ++ [⟨bytes, release⟩]) ∧
      (now + longestLatency (ident.latencies plan) ≤ maxInstant → Delayed ident plan now release) := by
  simp only [pushSegment, h.samePlan]
  obtain ⟨haligned, hlargest, hlater⟩ := stageSegment_spec h.aligned (FaultPlan.validate_faults hvalid)
    { release := now, injectedDelayMs := e.evidence.injectedDelayMs }
  generalize stageSegment plan.faults e.rngs _ = staged at *
  obtain ⟨staged, rngs⟩ := staged
  simp only [Nat.zero_max] at haligned hlargest hlater ⊢
  generalize he₁ : ({ e with plan := plan, rngs := rngs, evidence := _ } : DirectionEngine) = e₁
  have hpaced₁ : Paced ident plan e₁ pushed := by
    subst he₁
    exact ⟨rfl, haligned, h.slicer, h.bandwidth, h.blackhole, h.lossless, h.spaced, h.cursor⟩
  have hqueue₁ : e₁.queue = e.queue := by rw [← he₁]
  obtain ⟨hge₂, hfree₂, hqueue₂, hpaced₂⟩ := hpaced₁.throttle bytes.length now staged.release
  generalize e₁.throttleSegment bytes.length now staged.release = throttled at *
  obtain ⟨hge₃, hfree₃, hqueue₃, hpaced₃⟩ := hpaced₂.stagger hvalid bytes throttled.1
  have hlargest : staged.sliceDelay = largestDelay (ident.slices plan) := hlargest
  rw [hlargest]
  generalize throttled.2.staggerSegment (largestDelay (ident.slices plan)) throttled.1 = staggered at *
  refine ⟨staggered.1, ?_, hpaced₃.same ⟨rfl, rfl, rfl, rfl, rfl, rfl, rfl⟩, fun hfits => ?_⟩
  · rw [hqueue₃, hqueue₂, hqueue₁]
  · obtain ⟨total, htotal, hrelease⟩ := hlater hfits
    refine ⟨total, htotal, by omega, fun hno hzero => ?_⟩
    rw [hfree₃ hzero, hfree₂ hno, hrelease]

/-! ## One call -/

theorem Sized.of_bounds {slices : List SliceConfig} {n : Nat}
    (hpositive : ∀ c ∈ slices, 1 ≤ c.averageSize.get - c.variation)
    (hupper : ∀ c ∈ slices, n ≤ c.averageSize.get + c.variation)
    (hlower : ∃ c ∈ slices, c.averageSize.get - c.variation ≤ n) : Sized slices n := by
  obtain ⟨c, hc, hn⟩ := hlower
  have hleast : ∀ f : SliceConfig → Nat, ∃ least, (slices.map f).min? = some least ∧
      (∃ c' ∈ slices, f c' = least) ∧ ∀ c' ∈ slices, least ≤ f c' := by
    intro f
    cases hmin : (slices.map f).min? with
    | none =>
      rw [List.min?_eq_none_iff, List.map_eq_nil_iff] at hmin
      rw [hmin] at hc
      cases hc
    | some least =>
      obtain ⟨hmem, hle⟩ := List.min?_eq_some_iff.1 hmin
      exact ⟨least, rfl, List.mem_map.1 hmem, fun c' hc' => hle _ (List.mem_map_of_mem hc')⟩
  obtain ⟨least, hmin, ⟨c₁, hc₁, rfl⟩, hle⟩ := hleast fun c => c.averageSize.get - c.variation
  obtain ⟨greatest, hmin', ⟨c₂, hc₂, rfl⟩, -⟩ := hleast fun c => c.averageSize.get + c.variation
  exact ⟨_, _, hmin, hmin', hpositive c₁ hc₁, (hle c hc).trans hn, hupper c₂ hc₂⟩

/-- Drawing a length keeps the invariant, and a length that leaves bytes is one
the slicers allow. -/
theorem Paced.nextChunk (h : Paced ident plan e pushed) (hvalid : plan.validate = .ok ()) (remaining : Nat) :
    Paced ident plan (e.nextChunk remaining).2 pushed ∧
      ((e.nextChunk remaining).1 < remaining → Sized (ident.slices plan) (e.nextChunk remaining).1) := by
  unfold DirectionEngine.nextChunk
  split
  · next hslicer =>
    have hfaults := FaultPlan.validate_faults hvalid
    obtain ⟨haligned, -, hupper, hlower⟩ := sliceSizes_spec h.aligned hfaults (max remaining 1)
    simp only [nextSliceSize, h.samePlan]
    generalize sliceSizes plan.faults e.rngs (max remaining 1) = drawn at *
    obtain ⟨size, rngs⟩ := drawn
    simp only at haligned hupper hlower ⊢
    refine ⟨⟨rfl, haligned, h.slicer, h.bandwidth, h.blackhole, h.lossless, h.spaced, h.cursor⟩, fun hlt => ?_⟩
    have hpositive : ∀ c ∈ ident.slices plan, 1 ≤ c.averageSize.get - c.variation := by
      intro c hc
      obtain ⟨fault, hmem, hslice⟩ := List.mem_filterMap.1 hc
      have hvariation := (slice_valid (hfaults fault hmem) hslice).1
      omega
    obtain ⟨c, hc, hsize⟩ := hlower.resolve_left (by omega)
    have hone := hpositive c hc
    rw [show min (max (max (min size remaining) 1) 1) remaining = size by omega]
    exact .of_bounds hpositive hupper ⟨c, hc, hsize⟩
  · exact ⟨h, fun hlt => by simp only at hlt; omega⟩

/-- `data` has been queued at `now` as the segments `segments`. -/
structure Segmented (ident : Identity) (plan : FaultPlan) (now : Nat) (e : DirectionEngine) (pushed : List Queued)
    (data : List Byte) (segments : List Queued) (e' : DirectionEngine) : Prop where
  queue : e'.queue = e.queue ++ segments
  bytes : segmentBytes segments = data
  solid : Solid segments
  sized : ∀ segment ∈ segments.dropLast, Sized (ident.slices plan) segment.bytes.length
  delayed : now + longestLatency (ident.latencies plan) ≤ maxInstant →
    ∀ segment ∈ segments, Delayed ident plan now segment.release
  paced : Paced ident plan e' (pushed ++ segments)

/-- Nothing is queued. -/
theorem Segmented.none (h : Paced ident plan e pushed) (hsame : SameShaping e e') (hqueue : e'.queue = e.queue)
    (now : Nat) : Segmented ident plan now e pushed [] [] e' where
  queue := by rw [hqueue, List.append_nil]
  bytes := rfl
  solid := Solid.nil
  sized := by simp
  delayed := by simp
  paced := by
    rw [List.append_nil]
    exact h.same hsame

theorem Segmented.same {now : Nat} {data : List Byte} {segments : List Queued} {e₁ : DirectionEngine}
    (h : Segmented ident plan now e pushed data segments e₁) (hsame : SameShaping e₁ e')
    (hqueue : e'.queue = e₁.queue) :
    Segmented ident plan now e pushed data segments e' :=
  ⟨hqueue.trans h.queue, h.bytes, h.solid, h.sized, h.delayed, h.paced.same hsame⟩

/-- Data that fits is queued whole, segment by segment. -/
theorem pushLoop_segmented (hvalid : plan.validate = .ok ()) (now fuel : Nat) (h : Paced ident plan e pushed)
    (data : List Byte) (hfuel : data.length ≤ fuel) (hfit : e.buffered + data.length ≤ e.maxBuffer) :
    ∃ segments, Segmented ident plan now e pushed data segments (pushLoop now fuel e data).2.2.2 := by
  induction fuel generalizing e pushed data with
  | zero =>
    obtain rfl : data = [] := by simpa using hfuel
    exact ⟨[], .none h ⟨rfl, rfl, rfl, rfl, rfl, rfl, rfl⟩ rfl now⟩
  | succ fuel ih =>
    simp only [pushLoop]
    split
    · next hnil =>
      obtain rfl : data = [] := by simpa using hnil
      exact ⟨[], .none h ⟨rfl, rfl, rfl, rfl, rfl, rfl, rfl⟩ rfl now⟩
    next hne =>
    have hpos : 0 < data.length := by simpa [List.length_pos_iff] using hne
    obtain ⟨⟨rngs, hdrawn⟩, hone, hle⟩ := e.nextChunk_spec hpos
    obtain ⟨hpaced, hsized⟩ := h.nextChunk hvalid data.length
    generalize e.nextChunk data.length = drawn at *
    obtain ⟨chunk, e₁⟩ := drawn
    simp only at hdrawn hone hle hpaced hsized ⊢
    have hbuffered : e₁.buffered = e.buffered := by rw [hdrawn]
    have hmax : e₁.maxBuffer = e.maxBuffer := by rw [hdrawn]
    have hqueue : e₁.queue = e.queue := by rw [hdrawn]
    rw [if_neg (by omega)]
    have hlen : (data.take chunk).length = chunk := by rw [List.length_take]; omega
    have hbytes : data.take chunk ≠ [] := List.length_pos_iff.1 (by omega)
    have hpush := e₁.pushSegment_pushed (data.take chunk) now hbytes (by omega)
    obtain ⟨release, hqueue', hpaced', hdelayed⟩ := hpaced.push hvalid (data.take chunk) now
    generalize e₁.pushSegment (data.take chunk) now = first at *
    obtain ⟨latency, slice, e₂⟩ := first
    have hroom := hpush.buffered
    have hmax' := hpush.maxBuffer
    simp only at hroom hmax' hqueue' hpaced' ⊢
    obtain ⟨segments, hrest⟩ := ih hpaced' (data.drop chunk) (by rw [List.length_drop]; omega)
      (by rw [List.length_drop]; omega)
    refine ⟨⟨data.take chunk, release⟩ :: segments, ?_, ?_, ?_, ?_, fun hfits => ?_, ?_⟩
    · rw [hrest.queue, hqueue', hqueue, List.append_assoc]
      rfl
    · rw [segmentBytes_cons, hrest.bytes, List.take_append_drop]
    · unfold Solid
      rw [List.forall_mem_cons]
      exact ⟨hbytes, hrest.solid⟩
    · -- A segment with others behind it left bytes over.
      by_cases hlast : segments = []
      · simp [hlast]
      have hmore : chunk < data.length := by
        refine Nat.lt_of_not_le fun hall => hlast (hrest.solid.eq_nil ?_)
        rw [hrest.bytes, List.drop_eq_nil_of_le hall]
      rw [List.dropLast_cons_of_ne_nil hlast, List.forall_mem_cons, hlen]
      exact ⟨hsized hmore, hrest.sized⟩
    · rw [List.forall_mem_cons]
      exact ⟨hdelayed hfits, hrest.delayed hfits⟩
    · have hpaced'' := hrest.paced
      rwa [List.append_assoc] at hpaced''

/-- A refresh before the call does not matter. -/
theorem Segmented.after {now : Nat} {data : List Byte} {segments : List Queued} {e₁ : DirectionEngine}
    (h : Segmented ident plan now e₁ pushed data segments e') (hqueue : e₁.queue = e.queue) :
    Segmented ident plan now e pushed data segments e' :=
  ⟨h.queue.trans (by rw [hqueue]), h.bytes, h.solid, h.sized, h.delayed, h.paced⟩

/-- With neither a blackhole nor stream loss, what is taken is what is queued. -/
theorem acceptInto_segmented (hvalid : plan.validate = .ok ()) (hno : plan.faults.any ident.swallows = false)
    (hlossless : plan.faults.any ident.loses = false) (h : Paced ident plan e pushed) (c : Clock) (input : List Byte)
    (now : Nat) :
    ∃ segments, Segmented ident plan now e pushed (input.take (e.acceptInto c input now).1) segments
      (e.acceptInto c input now).2.1 := by
  simp only [acceptInto, blackholeDiscarding, h.blackhole hno, Bool.false_eq_true, if_false,
    show e.streamLoss.any Option.isSome = false from h.lossless hlossless]
  generalize hcap : min (min input.length e.limitAvailable) (e.maxBuffer - e.buffered) = cap
  split
  · refine ⟨[], ?_⟩
    rw [List.take_zero]
    exact .none h ⟨rfl, rfl, rfl, rfl, rfl, rfl, rfl⟩ rfl now
  next hz =>
  have hlen : (input.take cap).length = cap := by rw [List.length_take]; omega
  have hfit : e.buffered + (input.take cap).length ≤ e.maxBuffer := by omega
  obtain ⟨segments, hpushed⟩ := pushLoop_segmented hvalid now (input.take cap).length h (input.take cap) le_rfl hfit
  have howned := pushLoop_owns now (le_refl (input.take cap).length) hfit
  simp only [acceptPreserving]
  generalize pushLoop now (input.take cap).length e (input.take cap) = done at *
  obtain ⟨offset, latency, slice, e₁⟩ := done
  simp only at hpushed howned ⊢
  rw [if_neg (by omega), howned, hlen]
  generalize hcounted : ({ e₁ with evidence := _ } : DirectionEngine) = e₂
  have hcount : SameShaping e₁ e₂ := by
    rw [← hcounted]
    exact ⟨rfl, rfl, rfl, rfl, rfl, rfl, rfl⟩
  have hspent := spendLimit_spent e₂ cap
  obtain ⟨_, _, _, _, _, hf⟩ := hspent.frame
  exact ⟨segments, (hpushed.same hcount (by rw [← hcounted])).same hspent.sameShaping (by rw [hf])⟩

/-- What the call queues is the prefix it takes. -/
theorem accept_segmented (hvalid : plan.validate = .ok ()) (hno : plan.faults.any ident.swallows = false)
    (hlossless : plan.faults.any ident.loses = false) (h : Paced ident plan e pushed) (c : Clock) (input : List Byte) :
    ∃ segments, Segmented ident plan (e.refreshSyncTerminations c).2.now e pushed
      (input.take (e.accept c input).1) segments (e.accept c input).2.1 := by
  have hpub := e.refresh_published c
  have hpaced := h.same hpub.sameShaping
  obtain ⟨t, handle, ev, hf, -⟩ := hpub.frame
  have hcases := e.accept_cases c input
  generalize e.refreshSyncTerminations c = refreshed at *
  generalize e.accept c input = accepted at *
  obtain ⟨e₁, c₁⟩ := refreshed
  simp only at hpaced hf hcases ⊢
  have hqueue : e₁.queue = e.queue := by rw [hf]
  have hidle : Segmented ident plan c₁.now e₁ pushed [] [] e₁ :=
    .none hpaced ⟨rfl, rfl, rfl, rfl, rfl, rfl, rfl⟩ rfl c₁.now
  cases hcases with
  | idle hnil => exact ⟨[], by simpa using hidle.after hqueue⟩
  | refused hne hlim =>
    have hspent := refuseAtLimit_spent hlim
    obtain ⟨_, _, _, _, _, hf'⟩ := hspent.frame
    exact ⟨[], by simpa using (hidle.same hspent.sameShaping (by rw [hf'])).after hqueue⟩
  | into hne hlim =>
    obtain ⟨segments, hinto⟩ := acceptInto_segmented hvalid hno hlossless hpaced c₁.tick input c₁.now
    exact ⟨segments, hinto.after hqueue⟩

/-! ## Whole lives -/

theorem Lived.valid (h : Lived plan ident e pushed) : plan.validate = .ok () := by
  induction h with
  | newWithArcPlan handle c h => exact (newWithArcPlan_ok h).1
  | _ => assumption

/-- What compilation sets up for shaping. -/
theorem compileFault_shaping (ident : Identity) (now : Nat) (acc : Compiled) (fault : FaultSpec) :
    (compileFault ident now acc fault).slicerActive = (acc.slicerActive || (ident.slice fault).isSome) ∧
      (compileFault ident now acc fault).bandwidth.isSome = (acc.bandwidth.isSome || ident.throttles fault) := by
  unfold compileFault Identity.slice Identity.throttles Identity.active
  by_cases hactive : (ident.activation fault).1
  · simp only [hactive, if_true, compileKind, Bool.true_and]
    cases fault.kind with
    | bandwidth c =>
      simp only [combineBandwidth]
      cases acc.bandwidth <;> simp
    | _ => simp
  · simp only [hactive, Bool.false_eq_true, if_false, Bool.false_and, Bool.or_false]
    cases fault.kind <;> simp

theorem compile_paced (plan : FaultPlan) (ident : Identity) (handle : TerminationHandle) (now : Nat) :
    Paced ident plan (compile plan ident handle now) [] := by
  have hfold : ∀ (faults : List FaultSpec) (acc : Compiled),
      (faults.foldl (compileFault ident now) acc).slicerActive =
          (acc.slicerActive || !(faults.filterMap ident.slice).isEmpty) ∧
        (faults.foldl (compileFault ident now) acc).bandwidth.isSome =
          (acc.bandwidth.isSome || faults.any ident.throttles) := by
    intro faults
    induction faults with
    | nil => simp
    | cons fault faults ih =>
      intro acc
      obtain ⟨hslicer, hbandwidth⟩ := compileFault_shaping ident now acc fault
      obtain ⟨hslicer', hbandwidth'⟩ := ih (compileFault ident now acc fault)
      rw [List.foldl_cons, hslicer', hbandwidth', hslicer, hbandwidth, List.any_cons, Bool.or_assoc, Bool.or_assoc]
      refine ⟨?_, rfl⟩
      cases hslice : ident.slice fault with
      | none => rw [List.filterMap_cons_none hslice]; rfl
      | some c => rw [List.filterMap_cons_some hslice]; rfl
  obtain ⟨hslicer, hbandwidth⟩ := hfold plan.faults {}
  refine ⟨rfl, ?_, hslicer, fun hno => ?_, fun hno => ?_, fun hno => ?_, fun _ => List.isChain_nil, by simp⟩
  · rw [compile_rngs]
    unfold Aligned
    rw [List.forall₂_map_right_iff, List.forall₂_same]
    exact fun fault _ => rfl
  · rw [hno] at hbandwidth
    simp only [compile]
    rw [Option.map_eq_none_iff, ← Option.not_isSome_iff_eq_none, hbandwidth]
    simp
  · exact compile_unswallowed (by simpa using hno) handle now
  · rw [lossy_iff (compile_lossAt plan ident handle now)]
    exact hno

theorem Segmented.queuedBy_eq {now : Nat} {data : List Byte} {segments : List Queued}
    (h : Segmented ident plan now e pushed data segments e') : e.queuedBy e' = segments := by
  rw [queuedBy, h.queue, List.drop_left]

theorem Lived.paced (h : Lived plan ident e pushed) (hno : plan.faults.any ident.swallows = false)
    (hlossless : plan.faults.any ident.loses = false) : Paced ident plan e pushed := by
  induction h with
  | newWithArcPlan handle c h =>
    obtain ⟨-, rfl, -⟩ := newWithArcPlan_ok h
    exact compile_paced plan ident handle c.now
  | accept hlived c input ih =>
    obtain ⟨segments, hsegments⟩ := accept_segmented hlived.valid hno hlossless ih c input
    rw [hsegments.queuedBy_eq]
    exact hsegments.paced
  | @acceptVectored e pushed hlived c bufs ih =>
    obtain ⟨m, hm⟩ := e.acceptVectored_eq c bufs
    obtain ⟨segments, hsegments⟩ := accept_segmented hlived.valid hno hlossless ih c (bufs.flatten.take m)
    rw [hm, hsegments.queuedBy_eq]
    exact hsegments.paced
  | @pollFlush e pushed τ _ _ inner c ih =>
    obtain ⟨out, hp, -⟩ := e.pollFlush_passed inner c
    exact ih.same hp.sameShaping
  | @pollShutdown e pushed τ _ _ inner c ih =>
    obtain ⟨out, hp, -⟩ := e.pollShutdown_passed inner c
    exact ih.same hp.sameShaping
  | @pollDueTermination e pushed _ c ih => exact ih.same (e.pollDueTermination_passed c).sameShaping
  | @refreshSyncTerminations e pushed _ c ih => exact ih.same (e.refresh_passed c).sameShaping
  | absorbEvidence _ previous ih => exact ih.same ⟨rfl, rfl, rfl, rfl, rfl, rfl, rfl⟩
  | publish _ info ih => exact ih.same ⟨rfl, rfl, rfl, rfl, rfl, rfl, rfl⟩

/-- The segments of a call, in any state of an engine without an active blackhole
or stream loss: they are the prefix taken, all but the last of a length the
slicers allow; the latencies put each of them off, and nothing else does without
a bandwidth limit and a slice delay; and with a slice delay the segments of the
whole life are that much apart. -/
theorem segments_shaped (hlived : Lived plan ident e pushed) (hno : ∀ fault ∈ plan.faults, ident.swallows fault = false)
    (hlossless : ∀ fault ∈ plan.faults, ident.loses fault = false) (c : Clock) (input : List Byte) :
    let now := (e.refreshSyncTerminations c).2.now
    let r := e.accept c input
    let segments := e.queuedBy r.2.1
    r.2.1.queue = e.queue ++ segments ∧ segmentBytes segments = input.take r.1 ∧
      (∀ segment ∈ segments.dropLast, Sized (ident.slices plan) segment.bytes.length) ∧
      (now + longestLatency (ident.latencies plan) ≤ maxInstant →
        ∀ segment ∈ segments, Delayed ident plan now segment.release) ∧
      (0 < largestDelay (ident.slices plan) → Spaced (largestDelay (ident.slices plan)) (pushed ++ segments)) := by
  intro now r segments
  have hno : plan.faults.any ident.swallows = false := by simpa using hno
  have hlossless : plan.faults.any ident.loses = false := by simpa using hlossless
  have hpaced := hlived.paced hno hlossless
  obtain ⟨segments', hsegments⟩ := accept_segmented hlived.valid hno hlossless hpaced c input
  obtain rfl : segments = segments' := hsegments.queuedBy_eq
  exact ⟨hsegments.queue, hsegments.bytes, hsegments.sized, hsegments.delayed, hsegments.paced.spaced⟩

/-- A delay of ten with a jitter of four, and slices of one to three bytes that
are five apart. -/
def slicedPlan : FaultPlan where
  faults := [
    ⟨⟨"lag", by decide, by decide⟩, .one, .latency ⟨10, 4, ⟨64, by decide, by decide⟩⟩⟩,
    ⟨⟨"slices", by decide, by decide⟩, .one, .slice ⟨⟨2, Nat.two_pos, two_le_u64Max⟩, 1, 5⟩⟩]

def slicedIdent : Identity := ⟨7, "proxy", 1, .upstream⟩

def sliced : DirectionEngine := compile slicedPlan slicedIdent .new 0

theorem segments_shaped_sliced :
    let r := sliced.accept (.still 0) [1, 2, 3, 4, 5, 6]
    segmentBytes r.2.1.queue = [1, 2, 3, 4, 5, 6] ∧ Spaced 5 r.2.1.queue ∧
      ∀ segment ∈ r.2.1.queue, Delayed slicedIdent slicedPlan 0 segment.release := by
  have hlived : Lived slicedPlan slicedIdent sliced [] := .newWithArcPlan .new (.still 0) rfl
  obtain ⟨-, hbytes, -, hdelayed, hspaced⟩ := segments_shaped hlived (by decide) (by decide) (.still 0)
    [1, 2, 3, 4, 5, 6]
  have hall : (sliced.accept (.still 0) [1, 2, 3, 4, 5, 6]).1 = 6 := by decide +kernel
  have hdelay : largestDelay (slicedIdent.slices slicedPlan) = 5 := by decide
  have hfresh : ∀ e, sliced.queuedBy e = e.queue := fun e => rfl
  rw [hall, hfresh] at hbytes
  rw [hdelay, hfresh, List.nil_append] at hspaced
  rw [hfresh] at hdelayed
  dsimp only
  exact ⟨hbytes, hspaced (by decide), hdelayed (by decide)⟩

end DirectionEngine

end Eggchaos
