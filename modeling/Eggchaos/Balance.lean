import Eggchaos.FirstTermination
import Eggchaos.Release
/-!
# The stream's byte counters

`StreamEvidence` is fed from three sources: bytes of the direct path are added to
it, the engine's counters are copied to it where a call mirrors the engine, and a
retired engine's counters go on in its successor. `Ledger` relates them: what was
reported as written, what the copy lags behind the engine, and what transitions
have lost. The counters balance exactly where nothing lags and nothing is lost.

Two things break the balance. A call may forward queued bytes and return without
mirroring: a write that then takes nothing, a vectored write without room, and any
call held up by the barrier of a transition. And a transition over a failing
transport forgets what was queued.
-/

namespace Eggchaos
open Lib

namespace DirectionEngine
section
variable {τ : Type} [AsyncWrite τ]

/-- The segment at the head is released and the writer takes some of it. -/
def HeadLeaves (e : DirectionEngine) (inner : τ) (c : Clock) : Prop :=
  match e.queue with
  | [] => False
  | front :: _ =>
    (c.now < front.release → (e.queueTimer.poll c.tick c.now front.release).1.isPending = false) ∧
      taken front.bytes (AsyncWrite.pollWrite inner front.bytes).1 ≠ []

instance (e : DirectionEngine) (inner : τ) (c : Clock) : Decidable (e.HeadLeaves inner c) := by
  unfold HeadLeaves
  split
  · infer_instance
  · infer_instance

theorem headLeaves_of_nil {e : DirectionEngine} (h : e.queue = []) (inner : τ) (c : Clock) : ¬ e.HeadLeaves inner c := by
  simp [HeadLeaves, h]

/-- A drive forwards something exactly if the head leaves. -/
theorem handed_ne_nil_iff (e : DirectionEngine) (inner : τ) (c : Clock) :
    (e.handed inner c).flatMap (·.taken) ≠ [] ↔ e.HeadLeaves inner c := by
  unfold handed HeadLeaves
  cases hq : e.queue with
  | nil => simp [handedLoop, hq]
  | cons front rest =>
    simp only [handedLoop, hq]
    have hheld : (if c.now < front.release then e.queueTimer.poll c.tick c.now front.release
        else (Poll.ready (), e.queueTimer, c.tick)).1.isPending = false ↔
        (c.now < front.release → (e.queueTimer.poll c.tick c.now front.release).1.isPending = false) := by
      split
      · next hnow => simp [hnow]
      · next hnow => simp [hnow]
    rw [← hheld]
    generalize (if c.now < front.release then e.queueTimer.poll c.tick c.now front.release
      else (Poll.ready (), e.queueTimer, c.tick)) = held
    cases held.1.isPending with
    | true => simp
    | false =>
      simp only [Bool.false_eq_true, if_false, true_and]
      generalize AsyncWrite.pollWrite inner front.bytes = answer
      obtain ⟨outcome, inner'⟩ := answer
      cases outcome with
      | ready answer =>
        cases answer with
        | ok n =>
          simp only
          split
          · next hstop => simp [taken]
          · next hgo =>
            -- a write that goes on has taken something
            have hn : n ≤ front.bytes.length := by omega
            have hsome : taken front.bytes (.ready (.ok n)) ≠ [] := by
              simp only [taken, hn, if_true, ne_eq, List.take_eq_nil_iff]
              intro h
              rcases h with h | h
              · omega
              · rw [h] at hgo
                simp only [List.length_nil] at hgo
                omega
            simp [hsome]
        | error error => simp
      | pending => simp

variable [RecordsWrites τ]

/-- What a flush forwards. -/
theorem pollFlush_forwards (e : DirectionEngine) (inner : τ) (c : Clock) :
    ∃ out, Drained e out (e.pollFlush inner c).2.1 ∧ (out ≠ [] ↔ e.HeadLeaves inner c) := by
  obtain ⟨⟨out, hd, hlog⟩, -⟩ := e.pollQueue_driven inner c
  have hhanded : RecordsWrites.log (e.pollQueue inner c).2.2.1 = _ := e.handedLoop_log _ inner c
  rw [hlog, List.append_cancel_left_eq] at hhanded
  rw [pollFlush_engine]
  refine ⟨out, hd, ?_⟩
  rw [hhanded]
  exact e.handed_ne_nil_iff inner c

end

end DirectionEngine

/-! ## The ledger of a stream -/

namespace ChaosStream

/-- The engine's own counters: `total` bytes were accepted here or passed by, and
`lost` of the accepted ones are in no counter and no queue. -/
structure Books {τ : Type} (total lost : Nat) (s : ChaosStream τ) : Prop where
  fits : total ≤ u64Max
  sum : s.engine.evidence.bytesAccepted + s.evidence.directBytes = total
  balance : s.engine.evidence.bytesAccepted =
    s.engine.evidence.bytesForwarded + s.engine.evidence.bytesDiscarded + s.engine.buffered + lost

/-- The evidence beside them: `lag` forwarded bytes are not shown yet. -/
structure Ledger {τ : Type} (total lag lost : Nat) (s : ChaosStream τ) : Prop extends Books total lost s where
  accepted : s.evidence.bytesAccepted = total
  discarded : s.evidence.bytesDiscarded = s.engine.evidence.bytesDiscarded
  forwarded : s.evidence.bytesForwarded + lag = s.engine.evidence.bytesForwarded + s.evidence.directBytes

/-- Accepted is forwarded, discarded or queued. -/
def Balanced {τ : Type} (s : ChaosStream τ) : Prop :=
  s.evidence.bytesAccepted = s.evidence.bytesForwarded + s.evidence.bytesDiscarded + s.engine.queuedBytes.length

section
variable {τ : Type}

instance (s : ChaosStream τ) : Decidable s.Balanced := inferInstanceAs (Decidable (_ = _))

theorem Ledger.balanced_iff {s : ChaosStream τ} {total lag lost : Nat} (h : Ledger total lag lost s)
    (hh : s.engine.Healthy) : s.Balanced ↔ lag = 0 ∧ lost = 0 := by
  have hbuffered : s.engine.buffered = s.engine.queuedBytes.length := hh.buffered
  have htotal := h.sum
  have hbalance := h.balance
  have haccepted := h.accepted
  have hdiscarded := h.discarded
  have hforwarded := h.forwarded
  unfold Balanced
  omega

theorem mirror_ledger {s : ChaosStream τ} {total lost : Nat} (h : Books total lost s) : Ledger total 0 lost s.mirror := by
  have hfits := h.fits
  have htotal := h.sum
  have hbalance := h.balance
  refine ⟨⟨hfits, htotal, hbalance⟩, ?_, rfl, ?_⟩
  · simp only [mirror, StreamEvidence.mirrorEngine, DirectionEngine.evidenceNow, satAdd]
    rw [clampU64_of_le (by omega), htotal]
  · simp only [mirror, StreamEvidence.mirrorEngine, DirectionEngine.evidenceNow, satAdd]
    rw [clampU64_of_le (by omega)]
    rfl

/-- A step that passes bytes on moves them from the queue to the forwarded ones. -/
theorem Books.passed {s : ChaosStream τ} {total lost : Nat} (h : Books total lost s) (hh : s.engine.Healthy)
    {engine : DirectionEngine} {out : List Byte} (hp : DirectionEngine.Passed s.engine out engine) (inner : τ) :
    Books total lost { s with engine, inner } ∧
      engine.evidence.bytesForwarded = s.engine.evidence.bytesForwarded + out.length ∧
      engine.evidence.bytesDiscarded = s.engine.evidence.bytesDiscarded := by
  have hfits := h.fits
  have htotal := h.sum
  have hbalance := h.balance
  have hlen := congrArg List.length hp.bytes
  rw [← hh.buffered, List.length_append] at hlen
  have hf : engine.evidence.bytesForwarded = s.engine.evidence.bytesForwarded + out.length := by
    rw [hp.forwarded _ (clampU64_of_le (by omega)).symm, clampU64_of_le (by omega)]
  obtain ⟨_, _, _, _, _, _, _, hframe⟩ := hp.frame
  have ha : engine.evidence.bytesAccepted = s.engine.evidence.bytesAccepted := by rw [hframe]
  have hdis : engine.evidence.bytesDiscarded = s.engine.evidence.bytesDiscarded := by rw [hframe]
  have hb := hp.buffered
  refine ⟨⟨hfits, ?_, ?_⟩, hf, hdis⟩
  · simp only [ha]
    exact htotal
  · simp only [ha, hf, hdis, hb]
    omega

theorem Ledger.passed {s : ChaosStream τ} {total lag lost : Nat} (h : Ledger total lag lost s) (hh : s.engine.Healthy)
    {engine : DirectionEngine} {out : List Byte} (hp : DirectionEngine.Passed s.engine out engine) (inner : τ) :
    Ledger total (lag + out.length) lost { s with engine, inner } := by
  obtain ⟨hbooks, hf, hdis⟩ := h.toBooks.passed hh hp inner
  have hforwarded := h.forwarded
  refine ⟨hbooks, h.accepted, h.discarded.trans hdis.symm, ?_⟩
  simp only [hf]
  omega

/-- The bytes of a call that reports a count. -/
def counted : Poll (IoResult Nat) → Nat
  | .ready (.ok n) => n
  | _ => 0

/-- Bytes that pass the engine by are accepted and forwarded at once. -/
theorem direct_ledger {s : ChaosStream τ} {total lag lost : Nat} (h : Ledger total lag lost s)
    (r : Poll (IoResult Nat) × τ) (hfit : total + counted r.1 ≤ u64Max) :
    Ledger (total + counted r.1) lag lost (s.direct r).2 := by
  have htotal := h.sum
  have hbalance := h.balance
  have haccepted := h.accepted
  have hforwarded := h.forwarded
  have hdiscarded := h.discarded
  have hskip : ∀ inner : τ, Ledger (total + 0) lag lost { s with inner } := fun inner =>
    ⟨⟨by simpa using h.fits, htotal, hbalance⟩, haccepted, hdiscarded, hforwarded⟩
  obtain ⟨outcome, inner⟩ := r
  match outcome with
  | .ready (.ok n) =>
    simp only [counted] at hfit
    simp only [direct, StreamEvidence.noteDirect, counted]
    split
    · refine ⟨⟨hfit, ?_, hbalance⟩, ?_, hdiscarded, ?_⟩
      · simp only [satAdd]
        rw [clampU64_of_le (by omega)]
        omega
      · simp only [satAdd]
        rw [clampU64_of_le (by omega)]
        omega
      · simp only [satAdd]
        rw [clampU64_of_le (by omega), clampU64_of_le (by omega)]
        omega
    · next hz =>
      obtain rfl : n = 0 := by omega
      exact hskip inner
  | .ready (.error error) => exact hskip inner
  | .pending => exact hskip inner

/-- The books behind an acceptance of `n` bytes. -/
theorem Books.accept {s : ChaosStream τ} {total lost : Nat} (h : Books total lost s) (hh : s.engine.Healthy) (c : Clock)
    (bytes : List Byte) (hfit : total + (s.engine.accept c bytes).1 ≤ u64Max) :
    Books (total + (s.engine.accept c bytes).1) lost { s with engine := (s.engine.accept c bytes).2.1 } ∧
      (s.engine.accept c bytes).2.1.evidence.bytesForwarded = s.engine.evidence.bytesForwarded ∧
      ((s.engine.accept c bytes).1 = 0 →
        (s.engine.accept c bytes).2.1.evidence.bytesDiscarded = s.engine.evidence.bytesDiscarded) := by
  obtain ⟨ident, k, hl⟩ := hh.lossAt
  have hacc := DirectionEngine.accept_accepted hl c bytes
  have hpass := s.engine.refresh_passed c
  have hfits := h.fits
  have htotal := h.sum
  have hbalance := h.balance
  have hsurvivors := DirectionEngine.survivors_length_le ident (s.engine.refreshSyncTerminations c).1
    (s.engine.discardsAt c) (bytes.take (s.engine.accept c bytes).1)
  have hlen : (bytes.take (s.engine.accept c bytes).1).length = (s.engine.accept c bytes).1 := by simpa using hacc.le
  rw [hlen] at hsurvivors
  -- the refresh moves none of the counters
  have hf := hpass.forwarded _ (clampU64_of_le (show s.engine.evidence.bytesForwarded ≤ u64Max by omega)).symm
  have hb : (s.engine.refreshSyncTerminations c).1.buffered = s.engine.buffered := by simpa using hpass.buffered
  obtain ⟨_, _, _, _, _, _, _, hframe⟩ := hpass.frame
  have ha : (s.engine.refreshSyncTerminations c).1.evidence.bytesAccepted = s.engine.evidence.bytesAccepted := by
    rw [hframe]
  have hd : (s.engine.refreshSyncTerminations c).1.evidence.bytesDiscarded = s.engine.evidence.bytesDiscarded := by
    rw [hframe]
  have ha' := hacc.accepted _ (ha.trans (clampU64_of_le (show s.engine.evidence.bytesAccepted ≤ u64Max by omega)).symm)
  have hd' := hacc.discarded _ (hd.trans (clampU64_of_le (show s.engine.evidence.bytesDiscarded ≤ u64Max by omega)).symm)
  have hf' := hacc.forwarded
  have hb' := hacc.buffered
  rw [List.length_nil, Nat.add_zero, clampU64_of_le (by omega)] at hf
  rw [clampU64_of_le (by omega)] at ha'
  rw [clampU64_of_le (by omega)] at hd'
  refine ⟨⟨hfit, ?_, ?_⟩, hf'.trans hf, ?_⟩
  · simp only [ha']
    omega
  · simp only [ha', hd', hf', hf, hb', hb]
    omega
  · intro hzero
    rw [hd', hzero]
    simp

/-- A transition carries the counters over and mirrors; what is still queued is
lost. -/
theorem transition_ledger {s : ChaosStream τ} {total lost : Nat} (h : Books total lost s) (snapshot : PublishedPolicy)
    (c : Clock) : Ledger total 0 (lost + s.engine.buffered) (s.transition snapshot c).1 := by
  have hfits := h.fits
  have htotal := h.sum
  have hbalance := h.balance
  have hbefore : Books total (lost + s.engine.buffered) { s with
      engine := (s.engine.replace snapshot s.proxy s.connectionKey s.direction c).1
      observedGeneration := snapshot.generation
      evidence := { s.evidence.refreshPolicy snapshot.generation snapshot.plan snapshot.seedNamespace with
        pendingGeneration := 0, transitions := (s.evidence.transitions + 1) % 2 ^ 64 } } := by
    have carried : ∀ n, n ≤ u64Max → satAdd 0 n = n := fun n hn => by
      rw [satAdd, Nat.zero_add, clampU64_of_le hn]
    have ha : (s.engine.replace snapshot s.proxy s.connectionKey s.direction c).1.evidence.bytesAccepted =
        s.engine.evidence.bytesAccepted := carried s.engine.evidence.bytesAccepted (by omega)
    have hf : (s.engine.replace snapshot s.proxy s.connectionKey s.direction c).1.evidence.bytesForwarded =
        s.engine.evidence.bytesForwarded := carried s.engine.evidence.bytesForwarded (by omega)
    have hd : (s.engine.replace snapshot s.proxy s.connectionKey s.direction c).1.evidence.bytesDiscarded =
        s.engine.evidence.bytesDiscarded := carried s.engine.evidence.bytesDiscarded (by omega)
    have hb : (s.engine.replace snapshot s.proxy s.connectionKey s.direction c).1.buffered = 0 := rfl
    refine ⟨hfits, ?_, ?_⟩
    · simp only [ha]
      exact htotal
    · simp only [ha, hf, hd, hb]
      omega
  exact mirror_ledger hbefore

end

section
variable {τ : Type} [AsyncWrite τ] [RecordsWrites τ]

/-! ## Calls -/

theorem driveFlush_ledger {s : ChaosStream τ} {total lag lost : Nat} (h : Ledger total lag lost s)
    (hh : s.engine.Healthy) (c : Clock) :
    ∃ lag', Ledger total lag' lost (s.driveFlush c).2.1 ∧ (lag = 0 → (lag' = 0 ↔ ¬ s.engine.HeadLeaves s.inner c)) := by
  obtain ⟨out, hd, hout⟩ := s.engine.pollFlush_forwards s.inner c
  refine ⟨lag + out.length, h.passed hh hd.passed _, ?_⟩
  rintro rfl
  rw [← hout, Nat.zero_add, List.length_eq_zero_iff, not_not]

/-- An acceptance that takes something mirrors; one that takes nothing changes no
counter that the balance speaks of. -/
theorem acceptWrite_ledger {s : ChaosStream τ} {total lag lost : Nat} (h : Ledger total lag lost s)
    (hh : s.engine.Healthy) (hne : s.engine.isEmpty = false) (c : Clock) {bytes : List Byte} (hb : bytes ≠ [])
    (hfit : total + counted (s.acceptWrite c bytes).1 ≤ u64Max) :
    Ledger (total + counted (s.acceptWrite c bytes).1) (if s.engine.RefusesInput c then lag else 0) lost
      (s.acceptWrite c bytes).2.1 := by
  obtain ⟨ident, k, hl⟩ := hh.lossAt
  have hzero := DirectionEngine.accept_eq_zero_iff hl c hb
  by_cases hn : (s.engine.accept c bytes).1 = 0
  · have hsame : (s.acceptWrite c bytes).2.1 = { s with engine := (s.engine.accept c bytes).2.1 } ∧
        counted (s.acceptWrite c bytes).1 = 0 := by
      simp only [acceptWrite, hn, Nat.lt_irrefl, if_false]
      split
      · exact ⟨rfl, rfl⟩
      · exact ⟨rfl, rfl⟩
    rw [hsame.1, hsame.2, if_pos (hzero.1 hn)]
    obtain ⟨hbooks, hf, hd⟩ := h.toBooks.accept hh c bytes (by rw [hn]; exact h.fits)
    rw [hn] at hbooks
    exact ⟨hbooks, h.accepted, h.discarded.trans (hd hn).symm, by simpa [hf] using h.forwarded⟩
  · have hsome : (s.acceptWrite c bytes).2.1 =
          (driveFlush { s with engine := (s.engine.accept c bytes).2.1 } (s.engine.accept c bytes).2.2).2.1.mirror ∧
        counted (s.acceptWrite c bytes).1 = (s.engine.accept c bytes).1 := by
      unfold acceptWrite
      simp only [Nat.pos_of_ne_zero hn, if_true, counted, and_self]
    rw [hsome.2] at hfit
    rw [hsome.1, hsome.2, if_neg fun hr => hn (hzero.2 hr)]
    obtain ⟨hbooks, -, -⟩ := h.toBooks.accept hh c bytes hfit
    obtain ⟨out, hd, -⟩ := (s.engine.accept c bytes).2.1.pollFlush_forwards s.inner (s.engine.accept c bytes).2.2
    have hhealthy := DirectionEngine.accept_healthy hh hne c bytes
    exact mirror_ledger (hbooks.passed hhealthy hd.passed _).1

/-- The write forwards queued bytes and returns without mirroring: it offers
nothing, or what it offers is refused. -/
def WriteMiscounts (s : ChaosStream τ) (c : Clock) (bytes : List Byte) : Prop :=
  s.newerPolicy = none ∧ s.engine.isEmpty = false ∧ s.engine.HeadLeaves s.inner c ∧
    (s.driveFlush c).1.isError = false ∧
    (bytes = [] ∨ (s.driveFlush c).2.1.terminated = true ∨
      (s.driveFlush c).2.1.engine.RefusesInput (s.driveFlush c).2.2)

instance (s : ChaosStream τ) (c : Clock) (bytes : List Byte) : Decidable (s.WriteMiscounts c bytes) :=
  inferInstanceAs (Decidable (_ ∧ _))

theorem settledWrite_ledger {s : ChaosStream τ} {total lag lost : Nat} (h : Ledger total lag lost s)
    (hh : s.engine.Healthy) (hn : s.newerPolicy = none) (c : Clock) (bytes : List Byte)
    (hfit : total + counted (s.settledWrite c bytes).1 ≤ u64Max) :
    ∃ lag', Ledger (total + counted (s.settledWrite c bytes).1) lag' lost (s.settledWrite c bytes).2.1 ∧
      (lag = 0 → (lag' = 0 ↔ ¬ s.WriteMiscounts c bytes)) := by
  unfold settledWrite at hfit ⊢
  split
  · next he =>
    rw [if_pos he] at hfit
    have hout : (s.direct (AsyncWrite.pollWrite s.inner bytes)).1 = (AsyncWrite.pollWrite s.inner bytes).1 :=
      (direct_spec s _).1
    simp only [hout] at hfit ⊢
    exact ⟨lag, direct_ledger h _ hfit, by simp [WriteMiscounts, he]⟩
  · next he =>
    rw [if_neg he] at hfit
    have he : s.engine.isEmpty = false := by simpa using he
    obtain ⟨lag₁, hdriven, hlag⟩ := driveFlush_ledger h hh c
    have hhealthy := (healthyRule []).drive (s := s) (c := c) hh
    have hempty := (s.driveFlush_isEmpty c).trans he
    unfold WriteMiscounts
    unfold engineWrite at hfit ⊢
    generalize s.driveFlush c = driven at *
    obtain ⟨outcome, s', c'⟩ := driven
    simp only [hn, he, true_and] at *
    -- behind a drive that did not fail the bytes are offered
    have hoffer : total + counted (s'.offer c' bytes).1 ≤ u64Max →
        ∃ lag', Ledger (total + counted (s'.offer c' bytes).1) lag' lost (s'.offer c' bytes).2.1 ∧
          (lag = 0 → (lag' = 0 ↔ ¬ (s.engine.HeadLeaves s.inner c ∧
            (bytes = [] ∨ s'.terminated = true ∨ s'.engine.RefusesInput c')))) := by
      intro hfit
      unfold offer at hfit ⊢
      split
      · next hb =>
        have hb : bytes = [] := by simpa using hb
        exact ⟨lag₁, hdriven, by simpa [hb] using hlag⟩
      · next hb =>
        rw [if_neg hb] at hfit
        have hb : bytes ≠ [] := by simpa using hb
        split
        · next hclosed => exact ⟨lag₁, hdriven, by simpa [hclosed] using hlag⟩
        · next hopen =>
          rw [if_neg hopen] at hfit
          refine ⟨_, acceptWrite_ledger hdriven hhealthy hempty c' hb hfit, ?_⟩
          intro hzero
          split
          · next hr => simpa [hr] using hlag hzero
          · next hr => simp [hr, hb, hopen]
    match outcome, hfit with
    | .ready (.error error), hfit =>
      exact ⟨0, mirror_ledger hdriven.toBooks, by simp⟩
    | .ready (.ok ()), hfit => simpa using hoffer hfit
    | .pending, hfit => simpa using hoffer hfit

/-- The transition forgets queued bytes, or is held up behind bytes that its
barrier has forwarded. -/
def UpdateMiscounts (s : ChaosStream τ) (c : Clock) : Prop :=
  s.newerPolicy.isSome ∧ (s.engine.DriveFails s.inner c ∨
    (s.engine.barrier s.inner c).1 = true ∧ s.engine.HeadLeaves s.inner c)

instance (s : ChaosStream τ) (c : Clock) : Decidable (s.UpdateMiscounts c) := inferInstanceAs (Decidable (_ ∧ _))

/-- A poll settles the generation and goes on from there. -/
theorem settle_ledger {α : Type} {s : ChaosStream τ} {total lag lost : Nat} (h : Ledger total lag lost s)
    (hh : s.engine.Healthy) (c : Clock) (f : ChaosStream τ → Clock → Poll α × ChaosStream τ × Clock)
    (count : Poll α → Nat) (hcount : count .pending = 0) (miscounts : ChaosStream τ → Clock → Prop)
    (hf : ∀ s c total lag lost, Ledger total lag lost s → s.engine.Healthy → s.newerPolicy = none →
      total + count (f s c).1 ≤ u64Max → ∃ lag', Ledger (total + count (f s c).1) lag' lost (f s c).2.1 ∧
        (lag = 0 → (lag' = 0 ↔ ¬ miscounts s c)))
    (hfresh : ∀ (s : ChaosStream τ) c, s.engine.queue = [] → ¬ miscounts s c)
    (hnewer : s.newerPolicy ≠ none → ¬ miscounts s c) :
    let r : Poll α × ChaosStream τ × Clock := match s.updateLive c with
      | (.pending, s, c) => (.pending, s, c)
      | (.ready (), s, c) => f s c
    total + count r.1 ≤ u64Max → ∃ lag' lost', Ledger (total + count r.1) lag' lost' r.2.1 ∧
      (lag = 0 → lost = 0 → (lag' = 0 ∧ lost' = 0 ↔ ¬ (s.UpdateMiscounts c ∨ miscounts s c))) := by
  cases hn : s.newerPolicy with
  | none =>
    simp only [updateLive, hn]
    intro hfit
    obtain ⟨lag', hledger, hiff⟩ := hf s c total lag lost h hh hn hfit
    refine ⟨lag', lost, hledger, ?_⟩
    rintro hlag hlost
    simp [UpdateMiscounts, hn, hlost, hiff hlag]
  | some snapshot =>
    have hnot := hnewer (by simp [hn])
    have hpending : Ledger total lag lost
        { s with evidence := { s.evidence with pendingGeneration := snapshot.generation } } :=
      ⟨⟨h.fits, h.sum, h.balance⟩, h.accepted, h.discarded, h.forwarded⟩
    -- the barrier forwards what it can
    obtain ⟨out, hd, hout⟩ : ∃ out, DirectionEngine.Drained s.engine out (s.engine.barrier s.inner c).2.1 ∧
        (out ≠ [] ↔ s.engine.HeadLeaves s.inner c) := by
      unfold DirectionEngine.barrier
      split
      · next hnil =>
        have hnil : s.engine.queue = [] := by simpa [DirectionEngine.queueIsEmpty] using hnil
        exact ⟨[], .refl s.engine s.engine.queueTimer, by simp [DirectionEngine.headLeaves_of_nil hnil]⟩
      · exact s.engine.pollFlush_forwards s.inner c
    have hhealthy := DirectionEngine.barrier_healthy hh s.inner c
    have hbarrier := hpending.passed hh hd.passed (s.engine.barrier s.inner c).2.2.1
    have hsettled := s.engine.barrier_settled s.inner c
    simp only [updateLive, hn]
    cases hheld : (s.engine.barrier s.inner c).1 with
    | true =>
      simp only [if_true, hcount, Nat.add_zero]
      intro _
      refine ⟨lag + out.length, lost, hbarrier, ?_⟩
      rintro rfl rfl
      have hfails : ¬ s.engine.DriveFails s.inner c := fun hf => by simp [hf.not_held] at hheld
      simp only [UpdateMiscounts, hn, Option.isSome_some, true_and, hheld, hfails, false_or, hnot, or_false, ← hout,
        Nat.zero_add, List.length_eq_zero_iff, and_true, not_not]
    | false =>
      simp only [Bool.false_eq_true, if_false]
      intro hfit
      have htransition := transition_ledger hbarrier.toBooks snapshot (s.engine.barrier s.inner c).2.2.2
      have hready : s.updateLive c = (.ready (), (transition { s with
          evidence := { s.evidence with pendingGeneration := snapshot.generation }
          engine := (s.engine.barrier s.inner c).2.1, inner := (s.engine.barrier s.inner c).2.2.1 }
            snapshot (s.engine.barrier s.inner c).2.2.2)) := by
        simp only [updateLive, hn, hheld, Bool.false_eq_true, if_false]
      obtain ⟨lag', hledger, hiff⟩ := hf _ _ _ _ _ htransition (DirectionEngine.replace_healthy _ _ _ _ _ _)
        (updateLive_settled hready) hfit
      refine ⟨lag', _, hledger, ?_⟩
      rintro - rfl
      have hlost : 0 + (s.engine.barrier s.inner c).2.1.buffered = 0 ↔ ¬ s.engine.DriveFails s.inner c := by
        rw [← hsettled hheld, Nat.zero_add, hhealthy.buffered, List.length_eq_zero_iff]
        exact ⟨hhealthy.solid.eq_nil, fun hnil => by rw [hnil]; rfl⟩
      simp only [UpdateMiscounts, hn, Option.isSome_some, true_and, hheld, Bool.false_eq_true, false_and, or_false, hnot,
        hlost, (hiff rfl).2 (hfresh _ _ rfl)]

theorem pollWrite_ledger {s : ChaosStream τ} {total lag lost : Nat} (h : Ledger total lag lost s)
    (hh : s.engine.Healthy) (c : Clock) (bytes : List Byte) (hfit : total + counted (s.pollWrite c bytes).1 ≤ u64Max) :
    ∃ lag' lost', Ledger (total + counted (s.pollWrite c bytes).1) lag' lost' (s.pollWrite c bytes).2.1 ∧
      (lag = 0 → lost = 0 → (lag' = 0 ∧ lost' = 0 ↔ ¬ (s.UpdateMiscounts c ∨ s.WriteMiscounts c bytes))) :=
  settle_ledger h hh c (fun s c => s.settledWrite c bytes) counted rfl (fun s c => s.WriteMiscounts c bytes)
    (fun _ c _ _ _ h hh hn hfit => settledWrite_ledger h hh hn c bytes hfit)
    (fun s c hnil hm => DirectionEngine.headLeaves_of_nil hnil s.inner c hm.2.2.1) (fun hn hm => hn hm.1) hfit

/-- A vectored write without room does not mirror its drive. -/
theorem vectoredFull_ledger {s : ChaosStream τ} {total lag lost : Nat} (h : Ledger total lag lost s)
    (hh : s.engine.Healthy) (c : Clock) :
    counted (s.vectoredFull c).1 = 0 ∧ ∃ lag', Ledger total lag' lost (s.vectoredFull c).2.1 ∧
      (lag = 0 → (lag' = 0 ↔ ¬ s.engine.HeadLeaves s.inner c)) := by
  obtain ⟨lag', hdriven, hlag⟩ := driveFlush_ledger h hh c
  have hhealthy := (healthyRule []).drive (s := s) (c := c) hh
  unfold vectoredFull
  generalize s.driveFlush c = driven at *
  obtain ⟨outcome, s', c'⟩ := driven
  have hstalled : counted (s'.stalled c').1 = 0 ∧ Ledger total lag' lost (s'.stalled c').2.1 := by
    have hp := hdriven.passed hhealthy (s'.engine.refresh_passed c') s'.inner
    unfold stalled
    simp only
    split
    · exact ⟨rfl, hp⟩
    · exact ⟨rfl, hp⟩
  match outcome with
  | .ready (.error error) => exact ⟨rfl, lag', hdriven, hlag⟩
  | .ready (.ok ()) => exact ⟨hstalled.1, lag', hstalled.2, hlag⟩
  | .pending => exact ⟨hstalled.1, lag', hstalled.2, hlag⟩

/-- The vectored write forwards queued bytes and returns without mirroring. -/
def VectoredMiscounts (s : ChaosStream τ) (c : Clock) (bufs : List (List Byte)) : Prop :=
  s.newerPolicy = none ∧ s.engine.isEmpty = false ∧
    if ¬ s.engine.isPreservingOnly then s.WriteMiscounts c bufs.flatten
    else if s.engine.boundedAcceptCapacity = 0 then s.engine.HeadLeaves s.inner c
    else s.WriteMiscounts c (DirectionEngine.joinPrefix bufs
      (min (DirectionEngine.totalLength bufs) s.engine.boundedAcceptCapacity))

instance (s : ChaosStream τ) (c : Clock) (bufs : List (List Byte)) : Decidable (s.VectoredMiscounts c bufs) := by
  unfold VectoredMiscounts
  infer_instance

theorem settledVectored_ledger {s : ChaosStream τ} {total lag lost : Nat} (h : Ledger total lag lost s)
    (hh : s.engine.Healthy) (hn : s.newerPolicy = none) (c : Clock) (bufs : List (List Byte))
    (hfit : total + counted (s.settledVectored c bufs).1 ≤ u64Max) :
    ∃ lag', Ledger (total + counted (s.settledVectored c bufs).1) lag' lost (s.settledVectored c bufs).2.1 ∧
      (lag = 0 → (lag' = 0 ↔ ¬ s.VectoredMiscounts c bufs)) := by
  have hscalar : ∀ bytes, total + counted (s.pollWrite c bytes).1 ≤ u64Max →
      ∃ lag', Ledger (total + counted (s.pollWrite c bytes).1) lag' lost (s.pollWrite c bytes).2.1 ∧
        (lag = 0 → (lag' = 0 ↔ ¬ s.WriteMiscounts c bytes)) := by
    intro bytes hfit
    rw [pollWrite_settled hn] at hfit ⊢
    exact settledWrite_ledger h hh hn c bytes hfit
  unfold settledVectored at hfit ⊢
  unfold VectoredMiscounts
  split
  · next he =>
    rw [if_pos he] at hfit
    have hout : (s.direct (AsyncWrite.pollWriteVectored s.inner bufs)).1 = (AsyncWrite.pollWriteVectored s.inner bufs).1 :=
      (direct_spec s _).1
    simp only [hout] at hfit ⊢
    exact ⟨lag, direct_ledger h _ hfit, by simp [he]⟩
  next he =>
  rw [if_neg he] at hfit
  have he : s.engine.isEmpty = false := by simpa using he
  simp only [hn, he, true_and]
  split
  · next hp =>
    rw [if_pos hp] at hfit
    exact hscalar _ hfit
  · next hp =>
    rw [if_neg hp] at hfit
    split
    · obtain ⟨hzero, hfull⟩ := vectoredFull_ledger h hh c
      rw [hzero]
      exact hfull
    · next hroom =>
      rw [if_neg hroom] at hfit
      exact hscalar _ hfit

theorem pollWriteVectored_ledger {s : ChaosStream τ} {total lag lost : Nat} (h : Ledger total lag lost s)
    (hh : s.engine.Healthy) (c : Clock) (bufs : List (List Byte))
    (hfit : total + counted (s.pollWriteVectored c bufs).1 ≤ u64Max) :
    ∃ lag' lost', Ledger (total + counted (s.pollWriteVectored c bufs).1) lag' lost' (s.pollWriteVectored c bufs).2.1 ∧
      (lag = 0 → lost = 0 → (lag' = 0 ∧ lost' = 0 ↔ ¬ (s.UpdateMiscounts c ∨ s.VectoredMiscounts c bufs))) := by
  refine settle_ledger h hh c (fun s c => s.settledVectored c bufs) counted rfl (fun s c => s.VectoredMiscounts c bufs)
    (fun _ c _ _ _ h hh hn hfit => settledVectored_ledger h hh hn c bufs hfit) ?_ (fun hn hm => hn hm.1) hfit
  rintro s c hnil ⟨-, -, hm⟩
  have hstays := DirectionEngine.headLeaves_of_nil hnil s.inner c
  split at hm
  · exact hstays hm.2.2.1
  · split at hm
    · exact hstays hm
    · exact hstays hm.2.2.1

theorem pollFlush_ledger {s : ChaosStream τ} {total lag lost : Nat} (h : Ledger total lag lost s)
    (hh : s.engine.Healthy) (c : Clock) :
    ∃ lag' lost', Ledger total lag' lost' (s.pollFlush c).2.1 ∧
      (lag = 0 → lost = 0 → (lag' = 0 ∧ lost' = 0 ↔ ¬ s.UpdateMiscounts c)) := by
  have hdrive : ∀ (s : ChaosStream τ) c total lag lost, Ledger total lag lost s → s.engine.Healthy → s.newerPolicy = none →
      total ≤ u64Max → ∃ lag', Ledger total lag' lost (s.driveFlush c).2.1.mirror ∧ (lag = 0 → (lag' = 0 ↔ ¬ False)) := by
    intro s c total lag lost h hh _ _
    obtain ⟨lag', hdriven, -⟩ := driveFlush_ledger h hh c
    exact ⟨0, mirror_ledger hdriven.toBooks, by simp⟩
  obtain ⟨lag', lost', hledger, hiff⟩ := settle_ledger h hh c
    (fun s c => ((s.driveFlush c).1, (s.driveFlush c).2.1.mirror, (s.driveFlush c).2.2)) (fun _ => 0) rfl
    (fun _ _ => False) hdrive (by simp) (by simp) h.fits
  exact ⟨lag', lost', hledger, by simpa only [or_false] using hiff⟩

theorem pollShutdown_ledger {s : ChaosStream τ} {total lag lost : Nat} (h : Ledger total lag lost s)
    (hh : s.engine.Healthy) (c : Clock) :
    ∃ lag' lost', Ledger total lag' lost' (s.pollShutdown c).2.1 ∧
      (lag = 0 → lost = 0 → (lag' = 0 ∧ lost' = 0 ↔ ¬ s.UpdateMiscounts c)) := by
  have hdown : ∀ (s : ChaosStream τ) c total lag lost, Ledger total lag lost s → s.engine.Healthy → s.newerPolicy = none →
      total ≤ u64Max → ∃ lag', Ledger total lag' lost (mirror { s with
        engine := (s.engine.pollShutdown s.inner c).2.1, inner := (s.engine.pollShutdown s.inner c).2.2.1 }) ∧
        (lag = 0 → (lag' = 0 ↔ ¬ False)) := by
    intro s c total lag lost h hh _ _
    obtain ⟨out, hp, -⟩ := s.engine.pollShutdown_passed s.inner c
    exact ⟨0, mirror_ledger (h.toBooks.passed hh hp _).1, by simp⟩
  obtain ⟨lag', lost', hledger, hiff⟩ := settle_ledger h hh c
    (fun s c => ((s.engine.pollShutdown s.inner c).1,
      mirror { s with engine := (s.engine.pollShutdown s.inner c).2.1, inner := (s.engine.pollShutdown s.inner c).2.2.1 },
      (s.engine.pollShutdown s.inner c).2.2.2)) (fun _ => 0) rfl (fun _ _ => False) hdown (by simp) (by simp) h.fits
  exact ⟨lag', lost', hledger, by simpa only [or_false] using hiff⟩

/-- A read drives and mirrors, if there is an engine to drive. -/
theorem pollRead_ledger [AsyncRead τ] {s : ChaosStream τ} {total lag lost : Nat} (h : Ledger total lag lost s)
    (hh : s.engine.Healthy) (c : Clock) (cap : Nat) :
    ∃ lag', Ledger total lag' lost (s.pollRead c cap).2.1 ∧ (lag = 0 → lag' = 0) := by
  have keep : ∀ {s : ChaosStream τ} {lag : Nat} (inner : τ), Ledger total lag lost s → Ledger total lag lost { s with inner } :=
    fun _ h => ⟨⟨h.fits, h.sum, h.balance⟩, h.accepted, h.discarded, h.forwarded⟩
  unfold pollRead
  split
  · exact ⟨lag, keep _ h, id⟩
  · obtain ⟨lag', hdriven, -⟩ := driveFlush_ledger h hh c
    have hread := keep (AsyncRead.pollRead (s.driveFlush c).2.1.mirror.inner cap).2 (mirror_ledger hdriven.toBooks)
    simp only
    split
    · exact ⟨0, hread, fun _ => rfl⟩
    · exact ⟨0, hread, fun _ => rfl⟩

omit [AsyncWrite τ] [RecordsWrites τ] in
theorem pollTermination_ledger {s : ChaosStream τ} {total lag lost : Nat} (h : Ledger total lag lost s)
    (hh : s.engine.Healthy) (c : Clock) : Ledger total lag lost (s.pollTermination c).2.1 := by
  unfold pollTermination
  split
  · exact h
  · have hp := h.passed hh (s.engine.pollDueTermination_passed c) s.inner
    simp only
    split
    · exact hp
    · exact hp

end

end ChaosStream

/-! ## Counters never fall -/

/-- The counters that the engine keeps and the stream shows. -/
inductive Counter where
  | accepted
  | forwarded
  | discarded
  | chunksEvaluated
  | chunksDropped
  | bytesLost
deriving DecidableEq, Repr

/-- Bytes of the direct path count as accepted and forwarded. -/
def Counter.direct : Counter → Bool
  | .accepted | .forwarded => true
  | .discarded | .chunksEvaluated | .chunksDropped | .bytesLost => false

def EngineEvidence.counter (ev : EngineEvidence) : Counter → Nat
  | .accepted => ev.bytesAccepted
  | .forwarded => ev.bytesForwarded
  | .discarded => ev.bytesDiscarded
  | .chunksEvaluated => ev.streamLossChunksEvaluated
  | .chunksDropped => ev.streamLossChunksDropped
  | .bytesLost => ev.streamLossBytesDiscarded

def StreamEvidence.counter (ev : StreamEvidence) : Counter → Nat
  | .accepted => ev.bytesAccepted
  | .forwarded => ev.bytesForwarded
  | .discarded => ev.bytesDiscarded
  | .chunksEvaluated => ev.streamLossChunksEvaluated
  | .chunksDropped => ev.streamLossChunksDropped
  | .bytesLost => ev.streamLossBytesDiscarded

theorem EngineEvidence.Rise.counter {ev ev' : EngineEvidence} (h : Rise ev ev') (k : Counter) :
    Rises (ev.counter k) (ev'.counter k) := by
  cases k with
  | accepted => exact h.accepted
  | forwarded => exact h.forwarded
  | discarded => exact h.discarded
  | chunksEvaluated => exact h.evaluated
  | chunksDropped => exact h.dropped
  | bytesLost => exact h.lost

namespace DirectionEngine

theorem Passed.rise {e e' : DirectionEngine} {out : List Byte} (h : Passed e out e') :
    e.evidence.Rise e'.evidence := by
  have hforwarded : Rises e.evidence.bytesForwarded e'.evidence.bytesForwarded := by
    intro hle
    rw [h.forwarded _ (clampU64_of_le hle).symm]
    simp only [clampU64]
    omega
  obtain ⟨_, _, _, _, _, _, _, hframe⟩ := h.frame
  rw [hframe] at hforwarded ⊢
  exact ⟨.refl _, hforwarded, .refl _, .refl _, .refl _, .refl _⟩

theorem replace_rise (old : DirectionEngine) (snapshot : PublishedPolicy) (proxy : String) (key : UInt64)
    (direction : Direction) (c : Clock) :
    old.evidence.Rise (old.replace snapshot proxy key direction c).1.evidence := by
  have carried : ∀ n, Rises n (satAdd 0 n) := by
    intro n hn
    simp only [satAdd, clampU64]
    omega
  exact ⟨carried _, carried _, carried _, carried _, carried _, carried _⟩

end DirectionEngine

namespace ChaosStream

/-- What the evidence would show of a counter if it were mirrored now. -/
def shown {τ : Type} (s : ChaosStream τ) (k : Counter) : Nat :=
  if k.direct then satAdd (s.engine.evidence.counter k) s.evidence.directBytes else s.engine.evidence.counter k

/-- The evidence is nowhere ahead of what it mirrors, and has not fallen below
`before`. -/
structure Trails {τ : Type} (before : StreamEvidence) (s : ChaosStream τ) : Prop where
  word : ∀ k, s.engine.evidence.counter k ≤ u64Max
  behind : ∀ k, s.evidence.counter k ≤ s.shown k
  risen : ∀ k, before.counter k ≤ s.evidence.counter k

section
variable {τ : Type} {before : StreamEvidence}

theorem Trails.engine {s : ChaosStream τ} (h : Trails before s) {engine : DirectionEngine}
    (hr : s.engine.evidence.Rise engine.evidence) (inner : τ) : Trails before { s with engine, inner } := by
  refine ⟨fun k => (hr.counter k (h.word k)).2, fun k => (h.behind k).trans ?_, h.risen⟩
  have hle := (hr.counter k (h.word k)).1
  simp only [shown]
  split
  · simp only [satAdd, clampU64]
    omega
  · exact hle

theorem mirror_counter (s : ChaosStream τ) (k : Counter) : s.mirror.evidence.counter k = s.shown k := by
  cases k <;> rfl

theorem Trails.mirror {s : ChaosStream τ} (h : Trails before s) : Trails before s.mirror := by
  refine ⟨h.word, fun k => (s.mirror_counter k).le, fun k => ?_⟩
  rw [s.mirror_counter]
  exact (h.risen k).trans (h.behind k)

theorem Trails.direct {s : ChaosStream τ} (h : Trails before s) (r : Poll (IoResult Nat) × τ) :
    Trails before (s.direct r).2 := by
  unfold ChaosStream.direct
  split
  · next n inner =>
    simp only [StreamEvidence.noteDirect]
    split
    · refine ⟨h.word, fun k => ?_, fun k => ?_⟩
      · have hbehind := h.behind k
        have hword := h.word k
        cases k <;> simp only [shown, Counter.direct, StreamEvidence.counter, if_true, if_false, Bool.false_eq_true,
          satAdd, clampU64] at hbehind ⊢ <;> omega
      · have hrisen := h.risen k
        have hbehind := h.behind k
        cases k <;> simp only [shown, Counter.direct, StreamEvidence.counter, if_true, if_false, Bool.false_eq_true,
          satAdd, clampU64] at hbehind hrisen ⊢ <;> omega
    · exact ⟨h.word, h.behind, h.risen⟩
  · exact ⟨h.word, h.behind, h.risen⟩

variable [AsyncWrite τ] [RecordsWrites τ]

theorem Trails.drive {s : ChaosStream τ} (h : Trails before s) (c : Clock) : Trails before (s.driveFlush c).2.1 := by
  obtain ⟨out, hp, -⟩ := s.engine.pollFlush_passed s.inner c
  exact h.engine hp.rise _

theorem Trails.update {s : ChaosStream τ} (h : Trails before s) (c : Clock) : Trails before (s.updateLive c).2.1 := by
  unfold updateLive
  split
  · exact h
  · next snapshot hn =>
    have hpending : Trails before { s with evidence := { s.evidence with pendingGeneration := snapshot.generation } } :=
      ⟨h.word, h.behind, h.risen⟩
    obtain ⟨out, hp, -⟩ := s.engine.barrier_passed s.inner c
    have hbarrier := hpending.engine hp.rise (s.engine.barrier s.inner c).2.2.1
    simp only
    split
    · exact hbarrier
    · -- the successor carries the counters on, and is mirrored
      have hreplaced := hbarrier.engine (DirectionEngine.replace_rise (s.engine.barrier s.inner c).2.1 snapshot s.proxy
        s.connectionKey s.direction (s.engine.barrier s.inner c).2.2.2) (s.engine.barrier s.inner c).2.2.1
      have hrefreshed : Trails before { s with
          engine := ((s.engine.barrier s.inner c).2.1.replace snapshot s.proxy s.connectionKey s.direction
            (s.engine.barrier s.inner c).2.2.2).1
          inner := (s.engine.barrier s.inner c).2.2.1
          observedGeneration := snapshot.generation
          evidence := { s.evidence.refreshPolicy snapshot.generation snapshot.plan snapshot.seedNamespace with
            pendingGeneration := 0, transitions := (s.evidence.transitions + 1) % 2 ^ 64 } } :=
        ⟨hreplaced.word, hreplaced.behind, hreplaced.risen⟩
      exact hrefreshed.mirror

theorem Trails.acceptWrite {s : ChaosStream τ} (h : Trails before s) (c : Clock) (bytes : List Byte) :
    Trails before (s.acceptWrite c bytes).2.1 := by
  have haccept := h.engine (s.engine.accept_advances c bytes).rise s.inner
  unfold ChaosStream.acceptWrite
  simp only
  split
  · exact (haccept.drive _).mirror
  · split
    · exact haccept
    · exact haccept

theorem Trails.settledWrite {s : ChaosStream τ} (h : Trails before s) (c : Clock) (bytes : List Byte) :
    Trails before (s.settledWrite c bytes).2.1 := by
  unfold ChaosStream.settledWrite
  split
  · exact h.direct _
  · have hdriven := h.drive c
    unfold engineWrite
    split
    · next hr =>
      rw [hr] at hdriven
      exact hdriven.mirror
    · next s' c' _ hr =>
      rw [hr] at hdriven
      unfold offer
      split
      · exact hdriven
      · split
        · exact hdriven
        · exact hdriven.acceptWrite c' bytes

theorem Trails.pollWrite {s : ChaosStream τ} (h : Trails before s) (c : Clock) (bytes : List Byte) :
    Trails before (s.pollWrite c bytes).2.1 := by
  have hupdated := h.update c
  unfold ChaosStream.pollWrite
  split
  · next hr =>
    rw [hr] at hupdated
    exact hupdated
  · next hr =>
    rw [hr] at hupdated
    exact hupdated.settledWrite _ _

theorem Trails.pollWriteVectored {s : ChaosStream τ} (h : Trails before s) (c : Clock) (bufs : List (List Byte)) :
    Trails before (s.pollWriteVectored c bufs).2.1 := by
  have hupdated := h.update c
  unfold ChaosStream.pollWriteVectored
  split
  · next hr =>
    rw [hr] at hupdated
    exact hupdated
  next s' c' hr =>
  rw [hr] at hupdated
  split
  · exact hupdated.direct _
  split
  · exact hupdated.pollWrite _ _
  simp only
  split
  · have hdriven := hupdated.drive c'
    unfold vectoredFull
    split
    · next hr' =>
      rw [hr'] at hdriven
      exact hdriven
    · next s'' c'' _ hr' =>
      rw [hr'] at hdriven
      have hstalled := hdriven.engine (s''.engine.refresh_passed c'').rise s''.inner
      unfold stalled
      simp only
      split
      · exact hstalled
      · exact hstalled
  · exact hupdated.pollWrite _ _

theorem Trails.pollFlush {s : ChaosStream τ} (h : Trails before s) (c : Clock) : Trails before (s.pollFlush c).2.1 := by
  have hupdated := h.update c
  unfold ChaosStream.pollFlush
  split
  · next hr =>
    rw [hr] at hupdated
    exact hupdated
  · next hr =>
    rw [hr] at hupdated
    exact (hupdated.drive _).mirror

theorem Trails.pollShutdown {s : ChaosStream τ} (h : Trails before s) (c : Clock) :
    Trails before (s.pollShutdown c).2.1 := by
  have hupdated := h.update c
  unfold ChaosStream.pollShutdown
  split
  · next hr =>
    rw [hr] at hupdated
    exact hupdated
  · next s' c' hr =>
    rw [hr] at hupdated
    obtain ⟨out, hp, -⟩ := s'.engine.pollShutdown_passed s'.inner c'
    exact (hupdated.engine hp.rise _).mirror

theorem Trails.pollRead [AsyncRead τ] {s : ChaosStream τ} (h : Trails before s) (c : Clock) (cap : Nat) :
    Trails before (s.pollRead c cap).2.1 := by
  unfold ChaosStream.pollRead
  split
  · exact ⟨h.word, h.behind, h.risen⟩
  · have hmirror := (h.drive c).mirror
    simp only
    split
    · exact ⟨hmirror.word, hmirror.behind, hmirror.risen⟩
    · exact ⟨hmirror.word, hmirror.behind, hmirror.risen⟩

omit [AsyncWrite τ] [RecordsWrites τ] in
theorem Trails.pollTermination {s : ChaosStream τ} (h : Trails before s) (c : Clock) :
    Trails before (s.pollTermination c).2.1 := by
  unfold ChaosStream.pollTermination
  split
  · exact h
  · have hpolled := h.engine (s.engine.pollDueTermination_passed c).rise s.inner
    simp only
    split
    · exact hpolled
    · exact hpolled

end

end ChaosStream

/-! ## Runs -/

namespace StreamRun
variable {τ : Type} [AsyncWrite τ] [AsyncRead τ]

/-- The count a call reports as written. -/
def reported (s : StreamRun τ) : Op → Nat
  | .write bytes => ChaosStream.counted (s.stream.pollWrite s.clock bytes).1
  | .writeVectored bufs => ChaosStream.counted (s.stream.pollWriteVectored s.clock bufs).1
  | .flush | .shutdown | .read _ | .pollTermination | .publish _ _ => 0

def reportedAlong (s : StreamRun τ) : List Op → Nat
  | [] => 0
  | op :: ops => s.reported op + reportedAlong (step s op) ops

/-- The call forwards queued bytes without mirroring the engine, or replaces an
engine that still has bytes queued. -/
def Miscounts (s : StreamRun τ) : Op → Prop
  | .write bytes => s.stream.UpdateMiscounts s.clock ∨ s.stream.WriteMiscounts s.clock bytes
  | .writeVectored bufs => s.stream.UpdateMiscounts s.clock ∨ s.stream.VectoredMiscounts s.clock bufs
  | .flush | .shutdown => s.stream.UpdateMiscounts s.clock
  | .read _ | .pollTermination | .publish _ _ => False

instance (s : StreamRun τ) (op : Op) : Decidable (s.Miscounts op) := by
  unfold Miscounts
  split <;> infer_instance

open ChaosStream in
theorem step_ledger {s : StreamRun τ} {total lag lost : Nat} (h : ChaosStream.Ledger total lag lost s.stream)
    (hh : s.stream.engine.Healthy) (op : Op) (hfit : total + s.reported op ≤ u64Max) :
    ∃ lag' lost', ChaosStream.Ledger (total + s.reported op) lag' lost' (step s op).stream ∧
      (lag = 0 → lost = 0 → (lag' = 0 ∧ lost' = 0 ↔ ¬ s.Miscounts op)) := by
  cases op with
  | write bytes => exact pollWrite_ledger h hh s.clock bytes hfit
  | writeVectored bufs => exact pollWriteVectored_ledger h hh s.clock bufs hfit
  | flush => exact pollFlush_ledger h hh s.clock
  | shutdown => exact pollShutdown_ledger h hh s.clock
  | read cap =>
    obtain ⟨lag', hledger, hlag⟩ := pollRead_ledger h hh s.clock cap
    exact ⟨lag', lost, hledger, fun hl hz => by simp [hlag hl, hz, Miscounts]⟩
  | pollTermination =>
    exact ⟨lag, lost, pollTermination_ledger h hh s.clock, fun hl hz => by simp [hl, hz, Miscounts]⟩
  | publish plan seed =>
    exact ⟨lag, lost, ⟨⟨h.fits, h.sum, h.balance⟩, h.accepted, h.discarded, h.forwarded⟩,
      fun hl hz => by simp [hl, hz, Miscounts]⟩

theorem step_trails {before : StreamEvidence} {s : StreamRun τ} (h : ChaosStream.Trails before s.stream) (op : Op) :
    ChaosStream.Trails before (step s op).stream := by
  cases op with
  | write bytes => exact h.pollWrite s.clock bytes
  | writeVectored bufs => exact h.pollWriteVectored s.clock bufs
  | flush => exact h.pollFlush s.clock
  | shutdown => exact h.pollShutdown s.clock
  | read cap => exact h.pollRead s.clock cap
  | pollTermination => exact h.pollTermination s.clock
  | publish plan seed => exact ⟨h.word, h.behind, h.risen⟩

omit [AsyncWrite τ] [AsyncRead τ] in
/-- A stream starts with every counter at zero. -/
theorem Started.zero {s : StreamRun τ} (h : Started s) :
    s.stream.engine.evidence = {} ∧ s.stream.engine.buffered = 0 ∧ s.stream.evidence.directBytes = 0 ∧
      ∀ k, s.stream.evidence.counter k = 0 := by
  have hengine : s.stream.engine.evidence = {} ∧ s.stream.engine.buffered = 0 := by
    rcases h.engine with ⟨plan, ident, now, he⟩ | ⟨c, he⟩
    · rw [he]
      exact ⟨rfl, rfl⟩
    · rw [he]
      exact ⟨rfl, rfl⟩
  refine ⟨hengine.1, hengine.2, ?_⟩
  rcases h.fresh.2.1 with ⟨generation, plan, seed, hev⟩ | hev
  · rw [hev]
    exact ⟨rfl, fun k => by cases k <;> rfl⟩
  · rw [hev]
    exact ⟨rfl, fun k => by cases k <;> rfl⟩

omit [AsyncWrite τ] [AsyncRead τ] in
theorem Started.ledger {s : StreamRun τ} (h : Started s) : ChaosStream.Ledger 0 0 0 s.stream := by
  obtain ⟨hev, hbuf, hdirect, hzero⟩ := h.zero
  have ha : s.stream.evidence.bytesAccepted = 0 := hzero .accepted
  have hf : s.stream.evidence.bytesForwarded = 0 := hzero .forwarded
  have hd : s.stream.evidence.bytesDiscarded = 0 := hzero .discarded
  refine ⟨⟨Nat.zero_le _, ?_, ?_⟩, ha, ?_, ?_⟩
  · simp [hev, hdirect]
  · simp [hev, hbuf]
  · simp [hev, hd]
  · simp [hev, hf, hdirect]

omit [AsyncWrite τ] [AsyncRead τ] in
theorem Started.trails {s : StreamRun τ} (h : Started s) : ChaosStream.Trails s.stream.evidence s.stream := by
  obtain ⟨hev, -, -, hzero⟩ := h.zero
  refine ⟨fun k => ?_, fun k => ?_, fun k => Nat.le_refl _⟩
  · rw [hev]
    cases k <;> exact Nat.zero_le _
  · rw [hzero k]
    exact Nat.zero_le _

theorem reportedAlong_append (s : StreamRun τ) (ops ops' : List Op) :
    s.reportedAlong (ops ++ ops') = s.reportedAlong ops + (run step s ops).reportedAlong ops' := by
  induction ops generalizing s with
  | nil => simp [reportedAlong]
  | cons op ops ih => simp [reportedAlong, ih, Nat.add_assoc]

/-- Over a whole run the ledger shows what the calls have reported. -/
theorem run_ledger {s : StreamRun τ} {total lag lost : Nat} (h : ChaosStream.Ledger total lag lost s.stream)
    (hh : s.stream.engine.Healthy) (ops : List Op) (hfit : total + s.reportedAlong ops ≤ u64Max) :
    ∃ lag' lost', ChaosStream.Ledger (total + s.reportedAlong ops) lag' lost' (run step s ops).stream := by
  induction ops generalizing s total lag lost with
  | nil => exact ⟨lag, lost, h⟩
  | cons op ops ih =>
    simp only [reportedAlong, ← Nat.add_assoc] at hfit ⊢
    obtain ⟨lag', lost', hstep, -⟩ := step_ledger h hh op (by omega)
    exact ih hstep (step_healthy hh op) hfit

/-- From balanced books the run stays balanced exactly if no call miscounts. -/
theorem run_balanced_iff {s : StreamRun τ} {total : Nat} (h : ChaosStream.Ledger total 0 0 s.stream)
    (hh : s.stream.engine.Healthy) (ops : List Op) (hfit : total + s.reportedAlong ops ≤ u64Max) :
    (∀ pre, pre <+: ops → (run step s pre).stream.Balanced) ↔ Along step (fun s op => ¬ s.Miscounts op) s ops := by
  induction ops generalizing s total with
  | nil =>
    have hbalanced := (h.balanced_iff hh).2 ⟨rfl, rfl⟩
    simpa [Along] using hbalanced
  | cons op ops ih =>
    have hbalanced := (h.balanced_iff hh).2 ⟨rfl, rfl⟩
    simp only [reportedAlong, ← Nat.add_assoc] at hfit
    obtain ⟨lag', lost', hstep, hiff⟩ := step_ledger h hh op (by omega)
    have hhealthy := step_healthy hh op
    have hcounts := (hstep.balanced_iff hhealthy).trans (hiff rfl rfl)
    constructor
    · intro hall
      have hok := hcounts.1 (hall [op] (by simp))
      obtain ⟨rfl, rfl⟩ := (hiff rfl rfl).2 hok
      refine ⟨hok, (ih hstep hhealthy hfit).1 fun pre hp => ?_⟩
      exact hall (op :: pre) (by simpa using hp)
    · rintro ⟨hok, hrest⟩ pre hp
      obtain ⟨rfl, rfl⟩ := (hiff rfl rfl).2 hok
      cases pre with
      | nil => exact hbalanced
      | cons op' pre =>
        obtain ⟨rfl, hp'⟩ := List.cons_prefix_cons.1 hp
        exact (ih hstep hhealthy hfit).2 hrest pre hp'

/-- Whatever the calls, the evidence shows as accepted exactly what they reported
and no counter falls. It balances after every call exactly if no call miscounts. -/
theorem evidence_balanced_iff {s : StreamRun τ} (h : Started s) (ops : List Op)
    (hfit : s.reportedAlong ops ≤ u64Max) :
    ((∀ pre, pre <+: ops → (run step s pre).stream.Balanced) ↔ Along step (fun s op => ¬ s.Miscounts op) s ops) ∧
      ∀ pre, pre <+: ops → (run step s pre).stream.evidence.bytesAccepted = s.reportedAlong pre ∧
        ∀ k, (run step s pre).stream.evidence.counter k ≤ (run step s ops).stream.evidence.counter k := by
  refine ⟨run_balanced_iff h.ledger h.healthy ops (by omega), ?_⟩
  rintro pre ⟨post, rfl⟩
  rw [reportedAlong_append] at hfit
  obtain ⟨lag, lost, hledger⟩ := run_ledger h.ledger h.healthy pre (by omega)
  refine ⟨by simpa using hledger.accepted, ?_⟩
  have htrails := run_inv (fun s' : StreamRun τ => ChaosStream.Trails s.stream.evidence s'.stream)
    (fun _ op hs => step_trails hs op) h.trails pre
  rw [run_append]
  exact (run_inv (fun s' : StreamRun τ => ChaosStream.Trails (run step s pre).stream.evidence s'.stream)
    (fun _ op hs => step_trails hs op) ⟨htrails.word, htrails.behind, fun _ => Nat.le_refl _⟩ post).risen

/-- Past the latency a flush forwards both bytes, and mirrors. -/
theorem evidence_balanced_flushed :
    let s := scripted {} slowPlan rfl (.jump 6 2000000)
    let ops : List Op := [.write [7, 8], .flush, .flush]
    (run step s ops).stream.evidence.bytesForwarded = 2 ∧
      ∀ pre, pre <+: ops → (run step s pre).stream.Balanced := by
  have hstarted := start_started ({} : Script) (.new slowPlan 0 rfl) "proxy" 1 .upstream (.jump 6 2000000)
  refine ⟨by decide, ((evidence_balanced_iff hstarted [.write [7, 8], .flush, .flush] (by decide)).1).2 ?_⟩
  have hcounts : Along step (fun s op => ¬ s.Miscounts op) (scripted {} slowPlan rfl (.jump 6 2000000))
      [.write [7, 8], .flush, .flush] :=
    ⟨show ¬ Miscounts _ _ by decide, show ¬ Miscounts _ _ by decide,
      show ¬ Miscounts _ _ by decide, trivial⟩
  exact hcounts

/-- A write waits for the barrier of a new plan: the barrier has forwarded one of
two queued bytes, and the evidence shows neither. -/
theorem barrier_forwards_unseen :
    ¬ ∀ (s : StreamRun Script), Started s → ∀ ops, s.reportedAlong ops ≤ u64Max → (run step s ops).stream.Balanced := by
  intro hall
  have hbalanced := hall _
    (start_started { writes := [.ready (.ok 1), .pending] } (.new slowPlan 0 rfl) "proxy" 1 .upstream (.jump 8 2000000))
    [.write [7, 8], .publish ⟨[]⟩ 0, .write [9], .write [9]] (by decide)
  exact absurd hbalanced (by decide)

end StreamRun

end Eggchaos
