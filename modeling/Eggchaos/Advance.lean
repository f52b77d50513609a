import Eggchaos.EngineLemmas
/-!
# What an acceptance leaves alone

`Advances e e'` collects what holds of every part of `accept`, whatever path it
takes: the queue timer stays, the counters that the stream mirrors only rise, and
the evidence still names the termination that the engine records (`Marked`). A
counter is a machine word that saturates, so it rises as long as it started as one
(`Rises`).
-/

namespace Eggchaos
open Lib

/-- A word that does not fall. -/
def Rises (a a' : Nat) : Prop := a ≤ u64Max → a ≤ a' ∧ a' ≤ u64Max

theorem Rises.refl (a : Nat) : Rises a a := fun h => ⟨le_rfl, h⟩

theorem Rises.trans {a b c : Nat} (h : Rises a b) (h' : Rises b c) : Rises a c := by
  intro ha
  obtain ⟨hab, hb⟩ := h ha
  obtain ⟨hbc, hc⟩ := h' hb
  exact ⟨hab.trans hbc, hc⟩

theorem Rises.satAdd (a n : Nat) : Rises a (satAdd a n) := by
  intro ha
  simp only [Lib.satAdd, clampU64]
  omega

/-- The byte and stream-loss counters. -/
structure EngineEvidence.Rise (ev ev' : EngineEvidence) : Prop where
  accepted : Rises ev.bytesAccepted ev'.bytesAccepted
  forwarded : Rises ev.bytesForwarded ev'.bytesForwarded
  discarded : Rises ev.bytesDiscarded ev'.bytesDiscarded
  evaluated : Rises ev.streamLossChunksEvaluated ev'.streamLossChunksEvaluated
  dropped : Rises ev.streamLossChunksDropped ev'.streamLossChunksDropped
  lost : Rises ev.streamLossBytesDiscarded ev'.streamLossBytesDiscarded

namespace EngineEvidence

theorem Rise.refl (ev : EngineEvidence) : Rise ev ev := ⟨.refl _, .refl _, .refl _, .refl _, .refl _, .refl _⟩

theorem Rise.trans {ev ev' ev'' : EngineEvidence} (h : Rise ev ev') (h' : Rise ev' ev'') : Rise ev ev'' :=
  ⟨h.accepted.trans h'.accepted, h.forwarded.trans h'.forwarded, h.discarded.trans h'.discarded,
    h.evaluated.trans h'.evaluated, h.dropped.trans h'.dropped, h.lost.trans h'.lost⟩

/-- Counters outside these six may move. -/
theorem Rise.of_eq {ev ev' : EngineEvidence} (ha : ev'.bytesAccepted = ev.bytesAccepted)
    (hf : ev'.bytesForwarded = ev.bytesForwarded) (hd : ev'.bytesDiscarded = ev.bytesDiscarded)
    (he : ev'.streamLossChunksEvaluated = ev.streamLossChunksEvaluated)
    (hp : ev'.streamLossChunksDropped = ev.streamLossChunksDropped)
    (hl : ev'.streamLossBytesDiscarded = ev.streamLossBytesDiscarded) : Rise ev ev' :=
  ⟨ha ▸ .refl _, hf ▸ .refl _, hd ▸ .refl _, he ▸ .refl _, hp ▸ .refl _, hl ▸ .refl _⟩

end EngineEvidence

namespace DirectionEngine

/-- The evidence has the request of the recorded termination, which is of this
direction. -/
def Marked (e : DirectionEngine) : Prop :=
  e.evidence.termination = e.termination.map (·.request) ∧
    ∀ info, e.termination = some info → info.direction = e.direction

theorem Marked.of_eq {e e' : DirectionEngine} (h : e.Marked) (ht : e'.termination = e.termination)
    (hd : e'.direction = e.direction) (he : e'.evidence.termination = e.evidence.termination) : e'.Marked := by
  rw [Marked, ht, hd, he]
  exact h

structure Advances (e e' : DirectionEngine) : Prop where
  queueTimer : e'.queueTimer = e.queueTimer
  rise : e.evidence.Rise e'.evidence
  marked : e.Marked → e'.Marked

theorem Advances.refl (e : DirectionEngine) : Advances e e := ⟨rfl, .refl _, id⟩

theorem Advances.trans {e e₁ e₂ : DirectionEngine} (h : Advances e e₁) (h' : Advances e₁ e₂) : Advances e e₂ :=
  ⟨h'.queueTimer.trans h.queueTimer, h.rise.trans h'.rise, fun hm => h'.marked (h.marked hm)⟩

theorem publishCounting_advances (e : DirectionEngine) {info : TerminationInfo} (hd : info.direction = e.direction)
    (slot : Fin 7) : Advances e (e.publishCounting info slot) := by
  obtain ⟨acts, he⟩ := e.publishCounting_eq info slot
  rw [he]
  refine ⟨rfl, .of_eq rfl rfl rfl rfl rfl rfl, fun hm => ⟨rfl, fun info' heq => ?_⟩⟩
  cases ht : e.termination with
  | none =>
    rw [ht] at heq
    cases heq
    exact hd
  | some old =>
    rw [ht] at heq
    cases heq
    exact hm.2 old ht

theorem DueInfo.direction {e : DirectionEngine} {info : TerminationInfo} (h : e.DueInfo info) :
    info.direction = e.direction := by
  rcases h with ⟨state, -, rfl⟩ | ⟨deadline, id, -, rfl⟩
  · rfl
  · rfl

theorem refresh_advances (e : DirectionEngine) (c : Clock) : Advances e (e.refreshSyncTerminations c).1 := by
  rcases e.refresh_published c with heq | ⟨-, info, slot, hdue, heq⟩
  · rw [heq]
    exact .refl e
  · rw [heq]
    exact e.publishCounting_advances hdue.direction slot

theorem spendLimit_advances (e : DirectionEngine) (n : Nat) : Advances e (e.spendLimit n) := by
  unfold spendLimit
  split
  · exact .refl e
  · next remaining id _ =>
    have hspent : Advances e { e with remainingLimit := some (remaining - n, id) } :=
      ⟨rfl, .refl _, fun hm => hm.of_eq rfl rfl rfl⟩
    simp only
    split
    · exact hspent.trans (publishCounting_advances _ rfl _)
    · exact hspent

theorem refuseAtLimit_advances (e : DirectionEngine) : Advances e e.refuseAtLimit := by
  unfold refuseAtLimit
  split
  · exact publishCounting_advances _ rfl _
  · exact .refl e

/-- Queueing and shaping segments moves none of the six counters. -/
theorem Pushed.advances {e e' : DirectionEngine} {data : List Byte} (h : Pushed e data e') : Advances e e' := by
  obtain ⟨rngs, bandwidth, cursor, ev, hf, hev⟩ := h.frame
  have htimer : e'.queueTimer = e.queueTimer := by rw [hf]
  have hsame : e'.evidence = ev := by rw [hf]
  simp only [EngineEvidence.sansShaping, EngineEvidence.mk.injEq] at hev
  obtain ⟨ha, hfw, hd, -, -, -, -, -, -, hreq, -, he, hp, hl⟩ := hev
  rw [← hsame] at ha hfw hd hreq he hp hl
  refine ⟨htimer, .of_eq ha hfw hd he hp hl, fun hm => hm.of_eq ?_ ?_ hreq⟩
  · rw [hf]
  · rw [hf]

theorem pushLoop_advances (now fuel : Nat) (e : DirectionEngine) (data : List Byte) :
    Advances e (pushLoop now fuel e data).2.2.2 :=
  (pushLoop_pushed now fuel e data).2.advances

theorem decideStreamLossChunk_advances (e : DirectionEngine) (chunk : Nat) :
    Advances e (e.decideStreamLossChunk chunk).2 := by
  simp only [decideStreamLossChunk]
  split
  · refine ⟨rfl, ⟨.refl _, .refl _, .refl _, .satAdd _ _, ?_, .refl _⟩, fun hm => hm.of_eq rfl rfl rfl⟩
    simp only
    split
    · exact .satAdd _ _
    · exact .refl _
  · exact ⟨rfl, .refl _, fun hm => hm.of_eq rfl rfl rfl⟩

theorem classifyLoop_advances (now fuel : Nat) (e : DirectionEngine) (rest : List Byte) (acc : Classified) :
    Advances e (classifyLoop now fuel e rest acc).2 := by
  induction fuel generalizing e rest acc with
  | zero => exact .refl e
  | succ fuel ih =>
    simp only [classifyLoop]
    split
    · exact .refl e
    generalize min (chunkEnd (e.streamLossOffset / streamLossGrainBytes) - e.streamLossOffset) rest.length = run
    split
    · exact .refl e
    have hdecide := e.decideStreamLossChunk_advances (e.streamLossOffset / streamLossGrainBytes)
    generalize e.decideStreamLossChunk (e.streamLossOffset / streamLossGrainBytes) = decided at *
    split
    · refine (hdecide.trans ?_).trans (ih _ _ _)
      exact ⟨rfl, .of_eq rfl rfl rfl rfl rfl rfl, fun hm => hm.of_eq rfl rfl rfl⟩
    split
    · exact hdecide
    generalize rest.take (min run (decided.2.maxBuffer - decided.2.buffered)) = kept
    have hpush : Advances decided.2 (decided.2.pushPreserveRun kept now).2.2.2 :=
      pushLoop_advances now kept.length decided.2 kept
    generalize decided.2.pushPreserveRun kept now = pushed at *
    have hmoved : Advances e { pushed.2.2.2 with
        streamLossOffset := Lib.satAdd pushed.2.2.2.streamLossOffset pushed.1 } :=
      (hdecide.trans hpush).trans ⟨rfl, .refl _, fun hm => hm.of_eq rfl rfl rfl⟩
    split
    · exact hmoved
    · exact hmoved.trans (ih _ _ _)

theorem acceptWithStreamLoss_advances (e : DirectionEngine) (input : List Byte) (limitAvailable now : Nat) :
    Advances e (e.acceptWithStreamLoss input limitAvailable now).2 := by
  have hloop := classifyLoop_advances now (min input.length limitAvailable) e
    (input.take (min input.length limitAvailable)) {}
  simp only [acceptWithStreamLoss]
  generalize classifyLoop now _ e _ _ = done at *
  split
  · exact hloop
  · refine (hloop.trans ?_).trans (spendLimit_advances _ _)
    exact ⟨rfl, ⟨.satAdd _ _, .refl _, .satAdd _ _, .refl _, .refl _, .satAdd _ _⟩, fun hm => hm.of_eq rfl rfl rfl⟩

theorem acceptInto_advances (e : DirectionEngine) (c : Clock) (input : List Byte) (now : Nat) :
    Advances e (e.acceptInto c input now).2.1 := by
  simp only [acceptInto]
  split
  · split
    · exact .refl e
    · refine Advances.trans ?_ (spendLimit_advances _ _)
      exact ⟨rfl, ⟨.satAdd _ _, .refl _, .satAdd _ _, .refl _, .refl _, .refl _⟩, fun hm => hm.of_eq rfl rfl rfl⟩
  split
  · exact e.acceptWithStreamLoss_advances input e.limitAvailable now
  split
  · exact .refl e
  · simp only [acceptPreserving]
    generalize input.take (min (min input.length e.limitAvailable) (e.maxBuffer - e.buffered)) = data
    have hpush := pushLoop_advances now data.length e data
    generalize pushLoop now data.length e data = pushed at *
    split
    · exact hpush
    · refine (hpush.trans ?_).trans (spendLimit_advances _ _)
      exact ⟨rfl, ⟨.satAdd _ _, .refl _, .refl _, .refl _, .refl _, .refl _⟩, fun hm => hm.of_eq rfl rfl rfl⟩

theorem accept_advances (e : DirectionEngine) (c : Clock) (input : List Byte) : Advances e (e.accept c input).2.1 := by
  have hrefresh := e.refresh_advances c
  have hcases := e.accept_cases c input
  generalize e.refreshSyncTerminations c = refreshed at *
  generalize e.accept c input = accepted at *
  cases hcases with
  | idle => exact hrefresh
  | refused => exact hrefresh.trans (refuseAtLimit_advances _)
  | into => exact hrefresh.trans (acceptInto_advances _ _ _ _)

end DirectionEngine

end Eggchaos
