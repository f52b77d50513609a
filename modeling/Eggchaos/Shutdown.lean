import Eggchaos.ConnectionSeeds
import Eggchaos.Conservation
import Eggchaos.Release
/-!
# Orderly shutdown

The inner writer is shut down by `poll_shutdown` only, once the queue is empty
and the delays of the active slow-close faults have passed since the queue was
first found empty. An acceptance, a drive or a poll for terminations leaves the
deadline, its timer and the count of slow closes alone (`SameClose`), so the runs
of one engine are a matter of its shutdowns (`Closing`).

The delays run one after the other (`EngineRun.shutdown_ordered`), as long as an
`Instant` can tell their end.
-/

namespace Eggchaos
open Lib

namespace DirectionEngine

/-! ## What leaves the slow close alone -/

structure SameClose (e e' : DirectionEngine) : Prop where
  deadline : e'.shutdownDeadline = e.shutdownDeadline
  delay : e'.slowClose = e.slowClose
  timer : e'.shutdownTimer = e.shutdownTimer
  counted : e'.evidence.activations 4 = e.evidence.activations 4

theorem SameClose.refl (e : DirectionEngine) : SameClose e e := ⟨rfl, rfl, rfl, rfl⟩

theorem SameClose.trans {e e₁ e₂ : DirectionEngine} (h : SameClose e e₁) (h' : SameClose e₁ e₂) : SameClose e e₂ :=
  ⟨h'.deadline.trans h.deadline, h'.delay.trans h.delay, h'.timer.trans h.timer, h'.counted.trans h.counted⟩

theorem publishCounting_sameClose (e : DirectionEngine) (info : TerminationInfo) {slot : Fin 7} (hslot : slot ≠ 4) :
    SameClose e (e.publishCounting info slot) := by
  unfold publishCounting publishTermination
  cases e.termination with
  | none =>
    refine ⟨rfl, rfl, rfl, ?_⟩
    simp [Activations.bumpAt, Activations.bump, hslot.symm]
  | some old => exact ⟨rfl, rfl, rfl, rfl⟩

theorem refreshBlackhole_sameClose (e : DirectionEngine) (now : Nat) : SameClose e (e.refreshBlackhole now) := by
  unfold refreshBlackhole
  split
  · split
    · exact e.publishCounting_sameClose _ (by decide)
    · exact .refl e
  · exact .refl e

theorem refresh_sameClose (e : DirectionEngine) (c : Clock) : SameClose e (e.refreshSyncTerminations c).1 := by
  simp only [refreshSyncTerminations]
  split
  · exact .refl e
  · split
    · split
      · exact e.publishCounting_sameClose _ (by decide)
      · exact e.refreshBlackhole_sameClose _
    · exact e.refreshBlackhole_sameClose _

theorem spendLimit_sameClose (e : DirectionEngine) (n : Nat) : SameClose e (e.spendLimit n) := by
  unfold spendLimit
  split
  · exact .refl e
  · next remaining id _ =>
    have hspent : SameClose e { e with remainingLimit := some (remaining - n, id) } := ⟨rfl, rfl, rfl, rfl⟩
    simp only
    split
    · exact hspent.trans (publishCounting_sameClose _ _ (by decide))
    · exact hspent

theorem refuseAtLimit_sameClose (e : DirectionEngine) : SameClose e e.refuseAtLimit := by
  unfold refuseAtLimit
  split
  · exact publishCounting_sameClose _ _ (by decide)
  · exact .refl e

theorem Pushed.sameClose {e e' : DirectionEngine} {data : List Byte} (h : Pushed e data e') : SameClose e e' := by
  obtain ⟨rngs, bandwidth, cursor, ev, hf, hev⟩ := h.frame
  have hacts := congrArg EngineEvidence.activations hev
  rw [hf]
  exact ⟨rfl, rfl, rfl, congrFun hacts 4⟩

theorem decideStreamLossChunk_sameClose (e : DirectionEngine) (chunk : Nat) :
    SameClose e (e.decideStreamLossChunk chunk).2 := by
  simp only [decideStreamLossChunk]
  split
  · exact ⟨rfl, rfl, rfl, rfl⟩
  · exact ⟨rfl, rfl, rfl, rfl⟩

theorem classifyLoop_sameClose (now fuel : Nat) (e : DirectionEngine) (rest : List Byte) (acc : Classified) :
    SameClose e (classifyLoop now fuel e rest acc).2 := by
  induction fuel generalizing e rest acc with
  | zero => exact .refl e
  | succ fuel ih =>
    simp only [classifyLoop]
    split
    · exact .refl e
    generalize min (chunkEnd (e.streamLossOffset / streamLossGrainBytes) - e.streamLossOffset) rest.length = run
    split
    · exact .refl e
    have hdecide := e.decideStreamLossChunk_sameClose (e.streamLossOffset / streamLossGrainBytes)
    generalize e.decideStreamLossChunk (e.streamLossOffset / streamLossGrainBytes) = decided at *
    split
    · refine (hdecide.trans ?_).trans (ih _ _ _)
      exact ⟨rfl, rfl, rfl, rfl⟩
    split
    · exact hdecide
    generalize rest.take (min run (decided.2.maxBuffer - decided.2.buffered)) = kept
    have hpush : SameClose decided.2 (decided.2.pushPreserveRun kept now).2.2.2 :=
      (pushPreserveRun_pushed decided.2 kept now).2.sameClose
    generalize decided.2.pushPreserveRun kept now = pushed at *
    have hmoved : SameClose e { pushed.2.2.2 with
        streamLossOffset := Lib.satAdd pushed.2.2.2.streamLossOffset pushed.1 } :=
      (hdecide.trans hpush).trans ⟨rfl, rfl, rfl, rfl⟩
    split
    · exact hmoved
    · exact hmoved.trans (ih _ _ _)

theorem acceptWithStreamLoss_sameClose (e : DirectionEngine) (input : List Byte) (limitAvailable now : Nat) :
    SameClose e (e.acceptWithStreamLoss input limitAvailable now).2 := by
  have hloop := classifyLoop_sameClose now (min input.length limitAvailable) e
    (input.take (min input.length limitAvailable)) {}
  simp only [acceptWithStreamLoss]
  generalize classifyLoop now _ e _ _ = done at *
  split
  · exact hloop
  · refine (hloop.trans ?_).trans (spendLimit_sameClose _ _)
    exact ⟨rfl, rfl, rfl, by simp [Activations.bump]⟩

theorem acceptInto_sameClose (e : DirectionEngine) (c : Clock) (input : List Byte) (now : Nat) :
    SameClose e (e.acceptInto c input now).2.1 := by
  simp only [acceptInto]
  split
  · split
    · exact .refl e
    · refine SameClose.trans ?_ (spendLimit_sameClose _ _)
      exact ⟨rfl, rfl, rfl, by simp [Activations.bumpAt, Activations.bump]⟩
  split
  · exact e.acceptWithStreamLoss_sameClose input e.limitAvailable now
  split
  · exact .refl e
  · simp only [acceptPreserving]
    generalize input.take (min (min input.length e.limitAvailable) (e.maxBuffer - e.buffered)) = data
    have hpush := (pushLoop_pushed now data.length e data).2.sameClose
    generalize pushLoop now data.length e data = pushed at *
    split
    · exact hpush
    · refine (hpush.trans ?_).trans (spendLimit_sameClose _ _)
      exact ⟨rfl, rfl, rfl, by simp [Activations.bump]⟩

theorem accept_sameClose (e : DirectionEngine) (c : Clock) (input : List Byte) :
    SameClose e (e.accept c input).2.1 := by
  have hrefresh := e.refresh_sameClose c
  have hcases := e.accept_cases c input
  generalize e.refreshSyncTerminations c = refreshed at *
  generalize e.accept c input = accepted at *
  cases hcases with
  | idle => exact hrefresh
  | refused => exact hrefresh.trans (refuseAtLimit_sameClose _)
  | into => exact hrefresh.trans (acceptInto_sameClose _ _ _ _)

theorem reportTermination_sameClose (e : DirectionEngine) (c : Clock) : SameClose e (e.reportTermination c).2.1 := by
  have hrefresh := e.refresh_sameClose c
  simp only [reportTermination]
  split
  · exact hrefresh
  · exact hrefresh

theorem pollDueTermination_sameClose (e : DirectionEngine) (c : Clock) :
    SameClose e (e.pollDueTermination c).2.1 := by
  have hrefresh := e.refresh_sameClose c
  simp only [pollDueTermination]
  generalize e.refreshSyncTerminations c = refreshed at *
  split
  · exact hrefresh
  split
  · exact hrefresh
  split
  · generalize refreshed.1.termTimer.poll refreshed.2.tick refreshed.2.now _ = polled
    have htimer : SameClose refreshed.1 { refreshed.1 with termTimer := polled.2.1 } := ⟨rfl, rfl, rfl, rfl⟩
    split
    · exact hrefresh.trans htimer
    · exact (hrefresh.trans htimer).trans (reportTermination_sameClose _ _)
  · exact hrefresh.trans (reportTermination_sameClose _ _)

theorem Drained.sameClose {e e' : DirectionEngine} {out : List Byte} (h : Drained e out e') : SameClose e e' := by
  obtain ⟨timer, forwarded, hf⟩ := h.frame
  rw [hf]
  exact ⟨rfl, rfl, rfl, rfl⟩

section
variable {τ : Type} [AsyncWrite τ] [RecordsWrites τ]

theorem pollQueue_sameClose (e : DirectionEngine) (inner : τ) (c : Clock) :
    SameClose e (e.pollQueue inner c).2.1 := by
  obtain ⟨out, hdrained, -⟩ := (e.pollQueue_driven inner c).drained
  exact hdrained.sameClose

theorem pollFlush_sameClose (e : DirectionEngine) (inner : τ) (c : Clock) :
    SameClose e (e.pollFlush inner c).2.1 := by
  have hq := e.pollQueue_sameClose inner c
  unfold pollFlush
  split
  · next hr =>
    rw [hr] at hq
    exact hq
  · exact hq

end

end DirectionEngine

/-! ## Clocks -/

namespace ArmedTimer

theorem arm_clock (timer : ArmedTimer) (c : Clock) (now deadline : Nat) :
    c.now ≤ (timer.arm c now deadline).2.now := by
  unfold arm
  split
  · split
    · exact le_rfl
    · exact c.now_le_tick
  · exact c.now_le_tick

theorem poll_clock (timer : ArmedTimer) (c : Clock) (now deadline : Nat) :
    c.now ≤ (timer.poll c now deadline).2.2.now := by
  have harm := timer.arm_clock c now deadline
  unfold poll
  generalize timer.arm c now deadline = armed at *
  simp only
  split
  · exact harm.trans armed.2.now_le_tick
  · exact harm.trans armed.2.now_le_tick

end ArmedTimer

namespace DirectionEngine

theorem refresh_clock (e : DirectionEngine) (c : Clock) : c.now ≤ (e.refreshSyncTerminations c).2.now := by
  simp only [refreshSyncTerminations]
  split
  · exact le_rfl
  · split
    · split
      · exact c.now_le_tick
      · exact c.now_le_tick
    · exact c.now_le_tick

theorem blackholeDiscarding_clock (e : DirectionEngine) (c : Clock) : c.now ≤ (e.blackholeDiscarding c).2.now := by
  unfold blackholeDiscarding
  split
  · exact le_rfl
  · exact le_rfl
  · exact c.now_le_tick

theorem acceptInto_clock (e : DirectionEngine) (c : Clock) (input : List Byte) (now : Nat) :
    c.now ≤ (e.acceptInto c input now).2.2.now := by
  have hdiscarding := e.blackholeDiscarding_clock c
  simp only [acceptInto]
  split
  · split
    · exact hdiscarding
    · exact hdiscarding
  · split
    · exact hdiscarding
    · split
      · exact hdiscarding
      · exact hdiscarding

theorem accept_clock (e : DirectionEngine) (c : Clock) (input : List Byte) : c.now ≤ (e.accept c input).2.2.now := by
  have hrefresh := e.refresh_clock c
  have hcases := e.accept_cases c input
  generalize e.refreshSyncTerminations c = refreshed at *
  generalize e.accept c input = accepted at *
  have htick := hrefresh.trans refreshed.2.now_le_tick
  cases hcases with
  | idle => exact hrefresh
  | refused => exact htick
  | into => exact htick.trans (acceptInto_clock _ _ _ _)

theorem reportTermination_clock (e : DirectionEngine) (c : Clock) : c.now ≤ (e.reportTermination c).2.2.now := by
  have hrefresh := e.refresh_clock c
  simp only [reportTermination]
  split
  · exact hrefresh
  · exact hrefresh

theorem pollDueTermination_clock (e : DirectionEngine) (c : Clock) :
    c.now ≤ (e.pollDueTermination c).2.2.now := by
  have hrefresh := e.refresh_clock c
  simp only [pollDueTermination]
  generalize e.refreshSyncTerminations c = refreshed at *
  have htick := hrefresh.trans refreshed.2.now_le_tick
  split
  · exact hrefresh
  split
  · exact hrefresh
  split
  · have hpoll := htick.trans (refreshed.1.termTimer.poll_clock refreshed.2.tick refreshed.2.now ‹_›)
    generalize refreshed.1.termTimer.poll refreshed.2.tick refreshed.2.now _ = polled at *
    split
    · exact hpoll
    · exact hpoll.trans (reportTermination_clock _ _)
  · exact htick.trans (reportTermination_clock _ _)

section
variable {τ : Type} [AsyncWrite τ]

theorem pollQueueLoop_clock (fuel : Nat) (e : DirectionEngine) (inner : τ) (c : Clock) :
    c.now ≤ (pollQueueLoop fuel e inner c).2.2.2.now := by
  induction fuel generalizing e inner c with
  | zero => exact le_rfl
  | succ fuel ih =>
    simp only [pollQueueLoop]
    split
    · exact le_rfl
    next front rest _ =>
    have hheld : c.now ≤ (if c.now < front.release then e.queueTimer.poll c.tick c.now front.release
        else (Poll.ready (), e.queueTimer, c.tick)).2.2.now := by
      split
      · exact c.now_le_tick.trans (e.queueTimer.poll_clock _ _ _)
      · exact c.now_le_tick
    generalize (if c.now < front.release then e.queueTimer.poll c.tick c.now front.release
      else (Poll.ready (), e.queueTimer, c.tick)) = held at *
    split
    · exact hheld
    split
    · split
      · exact hheld
      · split
        · exact hheld
        · exact hheld.trans (ih _ _ _)
    · exact hheld
    · exact hheld

theorem pollFlush_clock (e : DirectionEngine) (inner : τ) (c : Clock) : c.now ≤ (e.pollFlush inner c).2.2.2.now := by
  have hq : c.now ≤ (e.pollQueue inner c).2.2.2.now := pollQueueLoop_clock _ e inner c
  unfold pollFlush
  split
  · next hr =>
    rw [hr] at hq
    exact hq
  · exact hq

/-- What writes leave alone, a drive leaves alone. -/
theorem pollQueueLoop_inner {P : τ → Prop} (hwrite : ∀ t bytes, P t → P (AsyncWrite.pollWrite t bytes).2) (fuel : Nat)
    (e : DirectionEngine) {inner : τ} (c : Clock) (h : P inner) : P (pollQueueLoop fuel e inner c).2.2.1 := by
  induction fuel generalizing e inner c with
  | zero => exact h
  | succ fuel ih =>
    simp only [pollQueueLoop]
    split
    · exact h
    next front rest _ =>
    generalize (if c.now < front.release then e.queueTimer.poll c.tick c.now front.release
      else (Poll.ready (), e.queueTimer, c.tick)) = held
    split
    · exact h
    have hw := hwrite inner front.bytes h
    split
    · next hr =>
      rw [hr] at hw
      split
      · exact hw
      · split
        · exact hw
        · exact ih _ _ hw
    · next hr =>
      rw [hr] at hw
      exact hw
    · next hr =>
      rw [hr] at hw
      exact hw

end

/-! ## The delay of an engine -/

/-- The delay of an active slow-close fault. -/
def Identity.slowCloseDelay (ident : Identity) (fault : FaultSpec) : Option Nat :=
  match fault.kind with
  | .slowClose c => if ident.active fault then some c.delay else none
  | _ => none

def Identity.slowCloses (ident : Identity) (plan : FaultPlan) : List Nat := plan.faults.filterMap ident.slowCloseDelay

/-- Where these delays end that began at `t`: where the clock cannot tell, at most
the longest delay of one fault later. -/
def closeAt (t : Nat) (delays : List Nat) : Nat :=
  if t + delays.sum ≤ maxInstant then t + delays.sum else t + min maxStreamFaultDuration delays.sum

theorem closeAt_of_fits {t : Nat} {delays : List Nat} (h : t + delays.sum ≤ maxInstant) :
    closeAt t delays = t + delays.sum := if_pos h

theorem slowCloseDelays_eq (ident : Identity) (faults : List FaultSpec) :
    slowCloseDelays faults (faults.map ident.activation) = faults.filterMap ident.slowCloseDelay := by
  induction faults with
  | nil => rfl
  | cons fault faults ih =>
    rw [List.filterMap_cons]
    unfold Identity.slowCloseDelay Identity.active
    simp only [List.map_cons, slowCloseDelays, ih]
    rcases ident.activation fault with ⟨active, rng⟩
    cases active
    · cases fault.kind <;> rfl
    · cases fault.kind <;> rfl

theorem compile_slowClose (plan : FaultPlan) (ident : Identity) (handle : TerminationHandle) (now : Nat) :
    (compile plan ident handle now).slowClose = sumDelays (ident.slowCloses plan) := by
  rw [Identity.slowCloses, ← slowCloseDelays_eq, ← compile_rngs plan ident handle now]
  rfl

theorem foldl_durationSatAdd {d : Nat} (h : d ≤ maxDuration) (ds : List Nat) :
    ds.foldl durationSatAdd d = min (d + ds.sum) maxDuration := by
  induction ds generalizing d with
  | nil => exact (Nat.min_eq_left h).symm
  | cons d' ds ih =>
    have hadd : durationSatAdd d d' = min (d + d') maxDuration := rfl
    rw [List.foldl_cons, ih (hadd ▸ Nat.min_le_right _ _), hadd, List.sum_cons]
    omega

/-- A sum of delays is exact, or longer than the clock can tell. -/
theorem sumDelays_eq {delays : List Nat} {delay : Nat} (h : sumDelays delays = some delay) :
    delay = delays.sum ∨ delay = maxDuration ∧ maxDuration ≤ delays.sum := by
  rcases delays with _ | ⟨d, _ | ⟨d', ds⟩⟩
  · cases h
  · cases h
    exact .inl (by simp)
  · cases h
    have hadd : durationSatAdd d d' = min (d + d') maxDuration := rfl
    rw [List.foldl_cons, foldl_durationSatAdd (hadd ▸ Nat.min_le_right _ _), hadd, List.sum_cons, List.sum_cons]
    omega

/-- The deadline that `startSlowClose` sets. -/
theorem deadline_eq_closeAt {delays : List Nat} {delay : Nat} (h : sumDelays delays = some delay) (t : Nat) :
    (checkedAdd t delay).getD (t + min maxStreamFaultDuration delay) = closeAt t delays := by
  have hlong : maxStreamFaultDuration ≤ maxDuration := by decide
  have hwide : maxInstant < maxDuration := by decide
  unfold checkedAdd closeAt
  rcases sumDelays_eq h with rfl | ⟨rfl, hle⟩
  · split <;> rfl
  · rw [if_neg (by omega), if_neg (by omega), Nat.min_eq_left hlong, Nat.min_eq_left (hlong.trans hle)]
    rfl

/-! ## What a shutdown does -/

/-- The slow close of an engine: `found` is when the queue was first found empty. -/
structure Closing (delays : List Nat) (found : Option Nat) (e : DirectionEngine) (c : Clock) : Prop where
  delay : e.slowClose = sumDelays delays
  keeps : e.shutdownTimer.Keeps
  deadline : e.shutdownDeadline = if delays = [] then none else found.map fun t => closeAt t delays
  counted : e.evidence.activations 4 ≤ if found.isSome then 1 else 0
  past : ∀ t, found = some t → t ≤ c.now

variable {delays : List Nat} {found : Option Nat} {e : DirectionEngine} {c : Clock}

theorem Closing.same (h : Closing delays found e c) {e' : DirectionEngine} (hsame : SameClose e e') {c' : Clock}
    (hclock : c.now ≤ c'.now) : Closing delays found e' c' where
  delay := hsame.delay.trans h.delay
  keeps := by
    rw [hsame.timer]
    exact h.keeps
  deadline := hsame.deadline.trans h.deadline
  counted := by
    rw [hsame.counted]
    exact h.counted
  past t ht := (h.past t ht).trans hclock

theorem Closing.start (h : Closing delays found e c) :
    Closing delays (found.or (some c.now)) (e.startSlowClose c).1 (e.startSlowClose c).2 := by
  have hpast : ∀ t, found.or (some c.now) = some t → t ≤ c.now := by
    cases found with
    | none => simp
    | some t => exact h.past
  unfold startSlowClose
  cases hd : e.shutdownDeadline with
  | some deadline =>
    -- the deadline is set, so the queue was found empty before
    obtain ⟨t, rfl⟩ : ∃ t, found = some t := by
      cases found with
      | some t => exact ⟨t, rfl⟩
      | none =>
        have hdeadline := h.deadline
        rw [hd] at hdeadline
        split at hdeadline <;> cases hdeadline
    exact h
  | none =>
    cases hs : e.slowClose with
    | none =>
      have hnil : delays = [] := by
        have hdelay := h.delay
        rw [hs] at hdelay
        cases delays with
        | nil => rfl
        | cons d ds => cases hdelay
      refine ⟨h.delay, h.keeps, ?_, h.counted.trans ?_, hpast⟩
      · rw [if_pos hnil, hd]
      · cases found <;> simp
    | some delay =>
      have hdelay := h.delay
      rw [hs] at hdelay
      have hne : delays ≠ [] := by
        rintro rfl
        cases hdelay
      have hnone : found = none := by
        have hdeadline := h.deadline
        rw [hd, if_neg hne] at hdeadline
        exact Option.map_eq_none_iff.1 hdeadline.symm
      subst hnone
      have hzero : e.evidence.activations 4 = 0 := Nat.le_zero.1 h.counted
      have hdeadline : some ((checkedAdd c.now delay).getD (c.now + min maxStreamFaultDuration delay)) =
          if delays = [] then none else (Option.or none (some c.now)).map fun t => closeAt t delays := by
        rw [if_neg hne, Option.none_or, Option.map_some, deadline_eq_closeAt hdelay.symm]
      have hlater : ∀ t, Option.or none (some c.now) = some t → t ≤ c.tick.now :=
        fun t ht => (hpast t ht).trans c.now_le_tick
      dsimp only
      split
      · refine ⟨hdelay, h.keeps, hdeadline, ?_, hlater⟩
        simp [Activations.bumpAt, Activations.bump, hzero, satAdd, clampU64]
      · exact ⟨hdelay, h.keeps, hdeadline, by simp [hzero], hlater⟩

theorem closeAt_nil (t : Nat) : closeAt t [] = t := by
  unfold closeAt
  split <;> simp

theorem Closing.await {t : Nat} (h : Closing delays (some t) e c) :
    Closing delays (some t) (e.awaitSlowClose c).2.1 (e.awaitSlowClose c).2.2 ∧
      ((e.awaitSlowClose c).1 = .ready () → closeAt t delays ≤ (e.awaitSlowClose c).2.2.now) := by
  have hdeadline := h.deadline
  unfold awaitSlowClose
  cases hd : e.shutdownDeadline with
  | none =>
    rw [hd] at hdeadline
    refine ⟨h, fun _ => ?_⟩
    split at hdeadline
    · next hnil =>
      rw [hnil, closeAt_nil]
      exact h.past t rfl
    · cases hdeadline
  | some deadline =>
    rw [hd] at hdeadline
    have heq : deadline = closeAt t delays := by
      split at hdeadline
      · cases hdeadline
      · exact Option.some.inj hdeadline
    dsimp only
    split
    · have hkeeps := ArmedTimer.poll_keeps h.keeps c.now_le_tick deadline
      have hready : (e.shutdownTimer.poll c.tick c.now deadline).1.isPending = false →
          deadline ≤ (e.shutdownTimer.poll c.tick c.now deadline).2.2.now :=
        ArmedTimer.poll_ready h.keeps c.now_le_tick
      have hclock := c.now_le_tick.trans (e.shutdownTimer.poll_clock c.tick c.now deadline)
      generalize e.shutdownTimer.poll c.tick c.now deadline = polled at *
      refine ⟨⟨h.delay, hkeeps, hdeadline, h.counted, fun t' ht' => (h.past t' ht').trans hclock⟩, ?_⟩
      intro hpoll
      rw [← heq]
      exact hready (by rw [hpoll]; rfl)
    · next hdue =>
      refine ⟨h.same (.refl e) c.now_le_tick, fun _ => ?_⟩
      rw [← heq]
      exact (Nat.le_of_not_lt hdue).trans c.now_le_tick

section
variable {τ : Type} [AsyncWrite τ]

/-- When a shutdown finds the queue empty, if it does. -/
def emptied (e : DirectionEngine) (inner : τ) (c : Clock) : Option Nat :=
  match e.pollQueue inner c with
  | (.ready (.ok ()), _, _, c) => some c.now
  | _ => none

theorem pollQueue_shutdowns (e : DirectionEngine) (inner : Tap (Closes τ)) (c : Clock) :
    (e.pollQueue inner c).2.2.1.io.shutdowns = inner.io.shutdowns :=
  pollQueueLoop_inner (P := fun t : Tap (Closes τ) => t.io.shutdowns = inner.io.shutdowns) (fun _ _ h => h) _ e c rfl

theorem pollFlush_shutdowns (e : DirectionEngine) (inner : Tap (Closes τ)) (c : Clock) :
    (e.pollFlush inner c).2.2.1.io.shutdowns = inner.io.shutdowns := by
  have hq := e.pollQueue_shutdowns inner c
  unfold pollFlush
  split
  · next hr =>
    rw [hr] at hq
    exact hq
  · exact hq

/-- A shutdown keeps the slow close, and calls the writer's only with the queue
empty and the delays over. -/
theorem Closing.shutdown (h : Closing delays found e c) (inner : Tap (Closes τ)) :
    Closing delays (found.or (e.emptied inner c)) (e.pollShutdown inner c).2.1 (e.pollShutdown inner c).2.2.2 ∧
      ((e.pollShutdown inner c).2.2.1.io.shutdowns ≠ inner.io.shutdowns →
        (e.pollShutdown inner c).2.1.queue = [] ∧ ∃ t, found.or (e.emptied inner c) = some t ∧
          closeAt t delays ≤ (e.pollShutdown inner c).2.2.2.now) := by
  have hsame := e.pollQueue_sameClose inner c
  have hclock : c.now ≤ (e.pollQueue inner c).2.2.2.now := pollQueueLoop_clock _ e inner c
  have hempty := (e.pollQueue_driven inner c).ready
  have hcount := e.pollQueue_shutdowns inner c
  unfold pollShutdown emptied
  rcases hr : e.pollQueue inner c with ⟨outcome, e₁, inner₁, c₁⟩
  rw [hr] at hsame hclock hempty hcount
  have hstops : Closing delays found e₁ c₁ := h.same hsame hclock
  rcases outcome with (error | ⟨⟨⟩⟩) | _
  · dsimp only
    rw [Option.or_none]
    exact ⟨hstops, fun hne => absurd hcount hne⟩
  · have hqueue : e₁.queue = [] := hempty.1 rfl
    -- from here on the queue has been found empty at some time
    obtain ⟨t, ht⟩ : ∃ t, found.or (some c₁.now) = some t := by
      cases found with
      | none => exact ⟨_, rfl⟩
      | some t => exact ⟨t, rfl⟩
    have hstart := hstops.start
    have hstarted := e₁.startSlowClose_passed c₁
    dsimp only
    rw [ht] at hstart ⊢
    generalize e₁.startSlowClose c₁ = started at *
    obtain ⟨hclosing, hready⟩ := hstart.await
    have hpassed := hstarted.trans (started.1.awaitSlowClose_passed started.2)
    have hstill : (started.1.awaitSlowClose started.2).2.1.queue = [] := by
      have hbytes := hpassed.bytes
      rw [hqueue] at hbytes
      exact (hpassed.solid (hqueue ▸ Solid.nil)).eq_nil hbytes.symm
    rcases hw : started.1.awaitSlowClose started.2 with ⟨⟨⟨⟩⟩ | _, e₂, c₂⟩
    · rw [hw] at hclosing hready hstill
      exact ⟨hclosing, fun _ => ⟨hstill, t, rfl, hready rfl⟩⟩
    · rw [hw] at hclosing
      exact ⟨hclosing, fun hne => absurd hcount hne⟩
  · dsimp only
    rw [Option.or_none]
    exact ⟨hstops, fun hne => absurd hcount hne⟩

end

end DirectionEngine

/-! ## Runs -/

namespace EngineRun
open DirectionEngine

variable {τ : Type} [AsyncWrite τ]

/-- When this call is a shutdown that finds the queue empty. -/
def emptiedAt (s : EngineRun τ) : Op → Option Nat
  | .pollShutdown => s.engine.emptied s.inner s.clock
  | _ => none

/-- When the first shutdown of a run to find the queue empty did. -/
def firstEmptied : EngineRun τ → List Op → Option Nat
  | _, [] => none
  | s, op :: ops => (s.emptiedAt op).or (firstEmptied (step s op) ops)

theorem firstEmptied_append (s : EngineRun τ) (ops : List Op) (op : Op) :
    s.firstEmptied (ops ++ [op]) = (s.firstEmptied ops).or ((run step s ops).emptiedAt op) := by
  induction ops generalizing s with
  | nil => simp [firstEmptied]
  | cons op' ops ih => rw [List.cons_append, firstEmptied, ih, firstEmptied, Option.or_assoc, run_cons]

variable {delays : List Nat} {found : Option Nat} {s : EngineRun (Closes τ)}

omit [AsyncWrite τ] in
/-- A call that is no shutdown finds nothing. -/
theorem closing_unfound (h : Closing delays found s.engine s.clock) {s' : EngineRun (Closes τ)}
    (hsame : SameClose s.engine s'.engine) (hclock : s.clock.now ≤ s'.clock.now) :
    Closing delays (found.or none) s'.engine s'.clock := by
  rw [Option.or_none]
  exact h.same hsame hclock

theorem step_closing (h : Closing delays found s.engine s.clock) (op : Op) :
    Closing delays (found.or (s.emptiedAt op)) (step s op).engine (step s op).clock ∧
      ((step s op).inner.io.shutdowns ≠ s.inner.io.shutdowns →
        op = .pollShutdown ∧ (step s op).engine.queue = [] ∧
          ∃ t, found.or (s.emptiedAt op) = some t ∧ closeAt t delays ≤ (step s op).clock.now) := by
  cases op with
  | accept input =>
    have hsame := s.engine.accept_sameClose s.clock input
    exact ⟨closing_unfound h hsame (s.engine.accept_clock s.clock input), fun hne => absurd rfl hne⟩
  | acceptVectored bufs =>
    obtain ⟨m, hm⟩ := s.engine.acceptVectored_eq s.clock bufs
    have hsame := s.engine.accept_sameClose s.clock (bufs.flatten.take m)
    have hclock := s.engine.accept_clock s.clock (bufs.flatten.take m)
    rw [← hm] at hsame hclock
    exact ⟨closing_unfound h hsame hclock, fun hne => absurd rfl hne⟩
  | pollFlush =>
    have hsame := s.engine.pollFlush_sameClose s.inner s.clock
    exact ⟨closing_unfound h hsame (s.engine.pollFlush_clock s.inner s.clock),
      fun hne => absurd (s.engine.pollFlush_shutdowns s.inner s.clock) hne⟩
  | pollShutdown =>
    obtain ⟨hclosing, hcalls⟩ := h.shutdown s.inner
    exact ⟨hclosing, fun hne => ⟨rfl, hcalls hne⟩⟩
  | pollDueTermination =>
    have hsame := s.engine.pollDueTermination_sameClose s.clock
    exact ⟨closing_unfound h hsame (s.engine.pollDueTermination_clock s.clock), fun hne => absurd rfl hne⟩

theorem run_closing (h : Closing delays found s.engine s.clock) (ops : List Op) :
    Closing delays (found.or (s.firstEmptied ops)) (run step s ops).engine (run step s ops).clock := by
  induction ops generalizing s found with
  | nil =>
    rw [firstEmptied, Option.or_none]
    exact h
  | cons op ops ih =>
    rw [firstEmptied, ← Option.or_assoc]
    exact ih (step_closing h op).1

theorem compile_closing (plan : FaultPlan) (ident : Identity) (handle : TerminationHandle) (now : Nat) (c : Clock) :
    Closing (ident.slowCloses plan) none (compile plan ident handle now) c where
  delay := compile_slowClose plan ident handle now
  keeps := ArmedTimer.idle_keeps
  deadline := by
    rw [Option.map_none, ite_self]
    rfl
  counted := Nat.zero_le _
  past t ht := by cases ht

/-- In every run of an engine, the call that shuts the writer down is a shutdown
that finds the queue empty, with every byte that was kept in the writer, and at
least the delays of all active slow-close faults after the first shutdown that
found it empty, where an `Instant` can tell that time. The slow close is counted at
most once. -/
theorem shutdown_ordered {plan : FaultPlan} {ident : Identity} {handle : TerminationHandle} {c₀ clock : Clock}
    {engine : DirectionEngine} (hnew : newWithArcPlan plan ident handle c₀ = (.ok engine, clock)) (io : τ)
    (ops : List Op) (op : Op) :
    let start : EngineRun (Closes τ) := { engine, inner := { io := { io } }, clock }
    let s := run step start ops
    let s' := step s op
    (s'.inner.io.shutdowns ≠ s.inner.io.shutdowns →
      op = .pollShutdown ∧ s'.engine.queue = [] ∧ s'.inner.written = kept ident plan s'.accepted ∧
        ∃ t, start.firstEmptied (ops ++ [op]) = some t ∧
          (t + (ident.slowCloses plan).sum ≤ maxInstant → t + (ident.slowCloses plan).sum ≤ s'.clock.now)) ∧
      s'.engine.evidence.activations 4 ≤ 1 := by
  intro start s s'
  have hreached : Reached plan ident s' := by
    refine ⟨handle, c₀, engine, clock, { io }, ops ++ [op], hnew, ?_⟩
    rw [run_append]
    rfl
  obtain ⟨-, rfl, rfl⟩ := newWithArcPlan_ok hnew
  have hrun : Closing (ident.slowCloses plan) (start.firstEmptied ops) s.engine s.clock := by
    have hclosing := run_closing (s := start) (compile_closing plan ident handle c₀.now _) ops
    rw [Option.none_or] at hclosing
    exact hclosing
  obtain ⟨hclosing, hcalls⟩ := step_closing hrun op
  constructor
  · intro hne
    obtain ⟨hop, hqueue, t, ht, hlate⟩ := hcalls hne
    refine ⟨hop, hqueue, ?_, t, ?_, fun hfits => closeAt_of_fits hfits ▸ hlate⟩
    · have hbytes := hreached.conserved.bytes
      rw [hqueue, segmentBytes_nil, List.append_nil] at hbytes
      exact hbytes
    · rw [firstEmptied_append]
      exact ht
  · refine hclosing.counted.trans ?_
    split
    · exact le_rfl
    · exact Nat.zero_le _

/-! ## Two days of slow close -/

/-- The clock stands at `a` for `k` readings and at `b` from then on. -/
def leap (k a b : Nat) (h : a ≤ b) : Clock where
  reading n := if n < k then a else b
  mono m n hle := by
    dsimp only
    split
    · split
      · exact le_rfl
      · exact h
    · rw [if_neg (by omega)]

/-- Two slow-close faults of a day each. -/
def twoDays : FaultPlan where
  faults := [
    ⟨⟨"first", by decide, by decide⟩, .one, .slowClose ⟨maxStreamFaultDuration⟩⟩,
    ⟨⟨"second", by decide, by decide⟩, .one, .slowClose ⟨maxStreamFaultDuration⟩⟩]

/-- An engine for it, over a writer that takes everything, from this clock on. -/
def closingRun (c : Clock) (ops : List Op) : EngineRun (Closes Script) :=
  run step { engine := compile twoDays sampleIdent .new c.now, inner := { io := { io := {} } }, clock := c.tick } ops

theorem shutdown_ordered_twoDays :
    let c := leap 8 0 (2 * maxStreamFaultDuration) (Nat.zero_le _)
    let s' := closingRun c [.accept [7], .pollShutdown, .pollShutdown]
    s'.inner.io.shutdowns = 1 ∧ s'.inner.written = kept sampleIdent twoDays s'.accepted ∧
      ∃ t, (closingRun c []).firstEmptied [.accept [7], .pollShutdown, .pollShutdown] = some t ∧
        t + (sampleIdent.slowCloses twoDays).sum ≤ s'.clock.now := by
  have hordered := (@shutdown_ordered Script _ twoDays sampleIdent .new
    (leap 8 0 (2 * maxStreamFaultDuration) (Nat.zero_le _)) _ _ rfl {} [.accept [7], .pollShutdown] .pollShutdown).1
      (by decide)
  obtain ⟨-, -, hwritten, t, ht, hlate⟩ := hordered
  have hfirst : (closingRun (leap 8 0 (2 * maxStreamFaultDuration) (Nat.zero_le _)) []).firstEmptied
      [.accept [7], .pollShutdown, .pollShutdown] = some 0 := by decide
  obtain rfl : t = 0 := Option.some.inj (ht.symm.trans hfirst)
  exact ⟨by decide, hwritten, 0, hfirst, hlate (by decide)⟩

end EngineRun

end Eggchaos
