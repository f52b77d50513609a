import Eggchaos.Advance
import Eggchaos.Vectored
/-!
# The first termination

A termination is known in three places: the engine records it, the handle carries
it to the runtime and across generations, and the stream's evidence shows it to
readers. The engine and the handle always agree, and what is set first stays. The
evidence is a copy that is taken where a call mirrors the engine, and the three
calls that may record a termination do not all mirror behind it: `poll_termination`
never does, and a write that takes nothing returns without it. `first_termination_iff` says
exactly which runs keep the three together.
-/

namespace Eggchaos
open Lib

namespace DirectionEngine

/-! ## When a termination falls due -/

/-- The deadline of a disconnect or of a finite blackhole has come. -/
def DueAt (e : DirectionEngine) (now : Nat) : Prop := ∃ deadline, e.pendingDeadline = some deadline ∧ deadline ≤ now

instance (e : DirectionEngine) (now : Nat) : Decidable (e.DueAt now) :=
  match h : e.pendingDeadline with
  | none => .isFalse (by rintro ⟨d, hd, -⟩; rw [h] at hd; cases hd)
  | some deadline => decidable_of_iff (deadline ≤ now) (by simp [DueAt, h])

theorem publishCounting_records {e : DirectionEngine} (info : TerminationInfo) (slot : Fin 7) :
    (e.publishCounting info slot).termination.isSome := by
  obtain ⟨acts, he⟩ := e.publishCounting_eq info slot
  rw [he]
  rfl

theorem refreshBlackhole_isSome {e : DirectionEngine} (h : e.termination = none) (now : Nat) :
    (e.refreshBlackhole now).termination.isSome ↔ ∃ deadline id, e.blackhole = some ⟨some deadline, id⟩ ∧ deadline ≤ now := by
  unfold refreshBlackhole
  split
  · next deadline id hb =>
    split
    · next hdue => exact ⟨fun _ => ⟨deadline, id, hb, hdue⟩, fun _ => publishCounting_records _ _⟩
    · next hnot =>
      simp only [h, Option.isSome_none, Bool.false_eq_true, false_iff]
      rintro ⟨deadline', id', heq, hdue⟩
      rw [hb] at heq
      cases heq
      exact hnot hdue
  · next hb =>
    simp only [h, Option.isSome_none, Bool.false_eq_true, false_iff]
    rintro ⟨deadline, id, heq, -⟩
    exact hb deadline id heq

/-- Refreshing records a termination exactly if one is due. -/
theorem refresh_isSome {e : DirectionEngine} (h : e.termination = none) (c : Clock) :
    (e.refreshSyncTerminations c).1.termination.isSome ↔ e.DueAt c.now := by
  have hblack := refreshBlackhole_isSome h c.now
  unfold DueAt pendingDeadline
  simp only [refreshSyncTerminations, h, Option.isSome_none, Bool.false_eq_true, if_false]
  cases hd : e.disconnect with
  | none =>
    simp only [hblack, Option.map_none]
    rcases e.blackhole with _ | ⟨_ | deadline, id⟩
    · simp
    · simp
    · simp
  | some state =>
    simp only [Option.map_some]
    split
    · next hdue =>
      simp only [publishCounting_records, true_iff]
      rcases e.blackhole with _ | ⟨_ | deadline, id⟩
      · exact ⟨_, rfl, hdue⟩
      · exact ⟨_, rfl, hdue⟩
      · exact ⟨_, rfl, (Nat.min_le_left _ _).trans hdue⟩
    · next hnot =>
      rw [hblack]
      rcases e.blackhole with _ | ⟨_ | deadline, id⟩
      · simpa using hnot
      · simpa using hnot
      · simp only [Option.some.injEq, BlackholeState.mk.injEq, exists_eq_left', and_assoc]
        constructor
        · rintro ⟨d, _, rfl, _, hd⟩
          omega
        · intro hmin
          exact ⟨deadline, id, rfl, rfl, by omega⟩

theorem refresh_eq_of_not_due {e : DirectionEngine} (h : e.termination = none) {c : Clock} (hnot : ¬ e.DueAt c.now) :
    (e.refreshSyncTerminations c).1 = e := by
  rcases e.refresh_published c with heq | ⟨-, info, slot, -, heq⟩
  · exact heq
  · exact absurd ((refresh_isSome h c).1 (by rw [heq]; exact publishCounting_records _ _)) hnot

/-- What a refused input leaves recorded: a termination that is due. -/
theorem accept_refused_isSome {e : DirectionEngine} (h : e.Healthy) (ht : e.termination = none) {c : Clock}
    {input : List Byte} (hne : input ≠ []) (hzero : (e.accept c input).1 = 0) :
    (e.accept c input).2.1.termination.isSome ↔ e.DueAt c.now := by
  obtain ⟨ident, k, hl⟩ := h.lossAt
  have hacc := accept_accepted hl c input
  have hpass := e.refresh_passed c
  have hlim : e.limitAvailable ≠ 0 := by
    intro hz
    have hsome := h.exhausted (exhaustedInfo_isSome.2 hz)
    rw [ht] at hsome
    cases hsome
  -- the limit is untouched, so it is not what requests termination
  have hnone : (e.accept c input).2.1.exhaustedInfo = none := by
    apply exhaustedInfo_eq_none
    have hmap : (e.accept c input).2.1.remainingLimit = e.remainingLimit := by
      rw [hacc.limit, hzero, hpass.limit]
      simp
    rw [limitAvailable, hmap]
    exact hlim
  rw [hacc.requested hne, hnone, Option.orElse_eq_orElse, Option.orElse_eq_or, Option.or_none, refresh_isSome ht]

/-- Whether `poll_due_termination` finds a termination due at one of the instants
it looks at the clock. -/
def DuePolled (e : DirectionEngine) (c : Clock) : Prop :=
  e.DueAt c.now ∨ e.DueAt c.tick.now ∨ ∃ deadline, e.pendingDeadline = some deadline ∧
    (e.termTimer.poll c.tick.tick c.tick.now deadline).1.isPending = false ∧
    deadline ≤ (e.termTimer.poll c.tick.tick c.tick.now deadline).2.2.now

theorem reportTermination_isSome {e : DirectionEngine} (h : e.termination = none) (c : Clock) :
    (e.reportTermination c).2.1.termination.isSome ↔ e.DueAt c.now := by
  rw [← refresh_isSome h c]
  unfold reportTermination
  simp only
  split
  · rfl
  · rfl

theorem pollDueTermination_isSome {e : DirectionEngine} (h : e.termination = none) (c : Clock) :
    (e.pollDueTermination c).2.1.termination.isSome ↔ e.DuePolled c := by
  unfold pollDueTermination DuePolled
  by_cases hdue : e.DueAt c.now
  · have hsome := (refresh_isSome h c).2 hdue
    simp only [hdue, true_or, iff_true]
    generalize e.refreshSyncTerminations c = refreshed at *
    cases ht : refreshed.1.termination with
    | none =>
      rw [ht] at hsome
      cases hsome
    | some info => simp [ht]
  · have hsame := refresh_eq_of_not_due h hdue
    have hclock : (e.refreshSyncTerminations c).2 = c.tick := by
      simp only [refreshSyncTerminations, h, Option.isSome_none, Bool.false_eq_true, if_false]
      split
      · split
        · rfl
        · rfl
      · rfl
    simp only [hsame, hclock, h, hdue, false_or]
    cases hp : e.pendingDeadline with
    | none => simp [h, DueAt, hp]
    | some deadline =>
      have hat : ∀ now, e.DueAt now ↔ deadline ≤ now := fun now => by simp [DueAt, hp]
      simp only [hat, Option.some.injEq, exists_eq_left']
      by_cases hnow : c.tick.now < deadline
      · simp only [hnow, if_true, Nat.not_le.2 hnow, false_or]
        generalize e.termTimer.poll c.tick.tick c.tick.now deadline = polled
        cases hfired : polled.1.isPending with
        | true => simp
        | false =>
          have hreport := reportTermination_isSome (e := { e with termTimer := polled.2.1, termination := none }) rfl
            polled.2.2
          simp only [Bool.false_eq_true, if_false, true_and]
          exact hreport.trans (hat _)
      · simp only [hnow, if_false, Nat.le_of_not_lt hnow, true_or, iff_true]
        rw [reportTermination_isSome h]
        exact (hat _).2 ((Nat.le_of_not_lt hnow).trans (c.tick.mono (Nat.zero_le 1)))

/-! ## What keeps the evidence of the engine -/

section
variable {τ : Type} [AsyncWrite τ] [RecordsWrites τ]

omit [RecordsWrites τ] in
/-- A flush leaves the engine that its drive of the queue leaves. -/
theorem pollFlush_engine (e : DirectionEngine) (inner : τ) (c : Clock) :
    (e.pollFlush inner c).2.1 = (e.pollQueue inner c).2.1 := by
  unfold pollFlush
  split
  · next hr => rw [hr]
  · rfl

theorem pollFlush_drained (e : DirectionEngine) (inner : τ) (c : Clock) :
    ∃ out, Drained e out (e.pollFlush inner c).2.1 := by
  obtain ⟨⟨out, hd, -⟩, -⟩ := e.pollQueue_driven inner c
  rw [pollFlush_engine]
  exact ⟨out, hd⟩

end

/-- The termination, where the evidence, the handle and the direction are kept. -/
structure SameTerm (e e' : DirectionEngine) : Prop where
  termination : e'.termination = e.termination
  marked : e.Marked → e'.Marked
  direction : e'.direction = e.direction

theorem Drained.sameTerm {e e' : DirectionEngine} {out : List Byte} (h : Drained e out e') : SameTerm e e' := by
  obtain ⟨timer, forwarded, hf⟩ := h.frame
  have ht : e'.termination = e.termination := by rw [hf]
  have hd : e'.direction = e.direction := by rw [hf]
  exact ⟨ht, fun hm => hm.of_eq ht hd (by rw [hf]), hd⟩

theorem SameTerm.trans {e e₁ e₂ : DirectionEngine} (h : SameTerm e e₁) (h' : SameTerm e₁ e₂) : SameTerm e e₂ :=
  ⟨h'.termination.trans h.termination, fun hm => h'.marked (h.marked hm), h'.direction.trans h.direction⟩

theorem slowClose_sameTerm (e : DirectionEngine) (c : Clock) :
    SameTerm e (e.startSlowClose c).1 ∧ SameTerm e (e.awaitSlowClose c).2.1 := by
  constructor
  · simp only [startSlowClose]
    split
    · split
      · exact ⟨rfl, fun hm => hm.of_eq rfl rfl rfl, rfl⟩
      · exact ⟨rfl, fun hm => hm.of_eq rfl rfl rfl, rfl⟩
    · exact ⟨rfl, id, rfl⟩
  · simp only [awaitSlowClose]
    split
    · exact ⟨rfl, id, rfl⟩
    · split
      · exact ⟨rfl, fun hm => hm.of_eq rfl rfl rfl, rfl⟩
      · exact ⟨rfl, id, rfl⟩

theorem pollShutdown_sameTerm {τ : Type} [AsyncWrite τ] [RecordsWrites τ] (e : DirectionEngine) (inner : τ) (c : Clock) :
    SameTerm e (e.pollShutdown inner c).2.1 := by
  obtain ⟨⟨out, hd, -⟩, -⟩ := e.pollQueue_driven inner c
  unfold pollShutdown
  split
  · next e' inner' c' hr =>
    rw [hr] at hd
    have hstart := (e'.slowClose_sameTerm c').1
    simp only
    generalize e'.startSlowClose c' = started at *
    have hwait := (started.1.slowClose_sameTerm started.2).2
    split
    · next hw =>
      rw [hw] at hwait
      exact (hd.sameTerm.trans hstart).trans hwait
    · next hw =>
      rw [hw] at hwait
      exact (hd.sameTerm.trans hstart).trans hwait
  · exact hd.sameTerm

theorem reportTermination_marked {e : DirectionEngine} (h : e.Marked) (c : Clock) :
    (e.reportTermination c).2.1.Marked := by
  have hm := (e.refresh_advances c).marked h
  unfold reportTermination
  simp only
  split
  · exact hm
  · exact hm

theorem pollDueTermination_marked {e : DirectionEngine} (h : e.Marked) (c : Clock) :
    (e.pollDueTermination c).2.1.Marked := by
  have hm := (e.refresh_advances c).marked h
  simp only [pollDueTermination]
  generalize e.refreshSyncTerminations c = refreshed at *
  split
  · exact hm
  split
  · exact hm
  split
  · generalize refreshed.1.termTimer.poll refreshed.2.tick refreshed.2.now _ = polled
    have ht : Marked { refreshed.1 with termTimer := polled.2.1 } := hm.of_eq rfl rfl rfl
    split
    · exact ht
    · exact reportTermination_marked ht _
  · exact reportTermination_marked hm _

/-- An engine that was compiled just now has room for a byte. -/
theorem replace_takes (old : DirectionEngine) (snapshot : PublishedPolicy) (proxy : String) (key : UInt64)
    (direction : Direction) (c c' : Clock) (ht : (old.replace snapshot proxy key direction c).1.termination = none) :
    ¬ (old.replace snapshot proxy key direction c).1.RefusesInput c' := by
  have hhealthy := replace_healthy old snapshot proxy key direction c
  rintro (hlim | ⟨-, hfull⟩)
  · have hsome := hhealthy.exhausted (exhaustedInfo_isSome.2 hlim)
    rw [ht] at hsome
    cases hsome
  · have hroom : ¬ (old.replace snapshot proxy key direction c).1.maxBuffer ≤ 0 := Nat.not_le.2 hhealthy.room
    have hoffset : (0 : Nat) ≠ u64Max := by decide
    unfold Full at hfull
    split at hfull
    · rcases hfull with hoff | ⟨hmax, -⟩
      · exact hoffset hoff
      · exact hroom hmax
    · exact hroom hfull

theorem replace_bounded (old : DirectionEngine) (snapshot : PublishedPolicy) (proxy : String) (key : UInt64)
    (direction : Direction) (c : Clock) (ht : (old.replace snapshot proxy key direction c).1.termination = none) :
    (old.replace snapshot proxy key direction c).1.boundedAcceptCapacity ≠ 0 := by
  have hhealthy := replace_healthy old snapshot proxy key direction c
  have hlim : (old.replace snapshot proxy key direction c).1.limitAvailable ≠ 0 :=
    fun hz => replace_takes old snapshot proxy key direction c c ht (.inl hz)
  have hroom := hhealthy.room
  have hbuffered : (old.replace snapshot proxy key direction c).1.buffered = 0 := rfl
  unfold boundedAcceptCapacity
  omega

end DirectionEngine

/-! ## The three places -/

namespace ChaosStream

/-- Engine, handle and evidence show the same termination, with the request of the
engine's own evidence. -/
def Agreed {τ : Type} (s : ChaosStream τ) : Prop :=
  s.engine.termHandle.get = s.engine.termination ∧ s.evidence.termination = s.engine.termination ∧
    s.engine.evidence.termination = s.engine.termination.map (·.request)

/-- What holds of a stream whether or not its evidence is up to date. -/
structure Recorded {τ : Type} (s : ChaosStream τ) : Prop where
  healthy : s.engine.Healthy
  marked : s.engine.Marked
  direction : s.livePolicy.isSome → s.engine.direction = s.direction
  copied : ∀ info, s.evidence.termination = some info → s.engine.termination = some info

section
variable {τ : Type}

/-- Agreement is a matter of the evidence alone. -/
theorem Recorded.agreed_iff {s : ChaosStream τ} (h : s.Recorded) :
    s.Agreed ↔ s.evidence.termination = s.engine.termination := by
  constructor
  · exact fun ha => ha.2.1
  · exact fun he => ⟨h.healthy.synced, he, h.marked.1⟩

/-- Before a termination nothing shows one. -/
theorem Recorded.unset {s : ChaosStream τ} (h : s.Recorded) (ht : s.engine.termination = none) :
    s.evidence.termination = none := by
  cases he : s.evidence.termination with
  | none => rfl
  | some info =>
    have := h.copied info he
    rw [ht] at this
    cases this

theorem Recorded.agreed_of_none {s : ChaosStream τ} (h : s.Recorded) (ht : s.engine.termination = none) : s.Agreed := by
  rw [h.agreed_iff, ht]
  exact h.unset ht

/-- An engine that keeps its termination. -/
theorem Recorded.same {s : ChaosStream τ} (h : s.Recorded) {engine : DirectionEngine} (hh : engine.Healthy)
    (hs : DirectionEngine.SameTerm s.engine engine) (inner : τ) : Recorded { s with engine, inner } where
  healthy := hh
  marked := hs.marked h.marked
  direction hl := hs.direction.trans (h.direction hl)
  copied info he := hs.termination.trans (h.copied info he)

theorem Agreed.same {s : ChaosStream τ} (h : s.Recorded) (ha : s.Agreed) {engine : DirectionEngine}
    (hh : engine.Healthy) (hs : DirectionEngine.SameTerm s.engine engine) (inner : τ) :
    Agreed { s with engine, inner } := by
  rw [(h.same hh hs inner).agreed_iff]
  exact ha.2.1.trans hs.termination.symm

/-- Mirroring brings the evidence up to date. -/
theorem mirrorEngine_termination {s : ChaosStream τ} (h : s.Recorded) :
    (s.evidence.mirrorEngine s.engine).termination = s.engine.termination := by
  have hcopied := h.copied
  simp only [StreamEvidence.mirrorEngine, DirectionEngine.evidenceNow, h.marked.1]
  cases ht : s.engine.termination with
  | none => simpa using h.unset ht
  | some info =>
    cases he : s.evidence.termination with
    | none =>
      have hdir := h.marked.2 info ht
      simp [← hdir]
    | some info' =>
      have := hcopied info' he
      rw [ht] at this
      cases this
      rfl

theorem mirror_agreed {s : ChaosStream τ} (h : s.Recorded) : s.mirror.Recorded ∧ s.mirror.Agreed := by
  have hm := mirrorEngine_termination h
  have hr : s.mirror.Recorded :=
    ⟨h.healthy, h.marked, h.direction, fun info he => hm.symm.trans he⟩
  exact ⟨hr, hr.agreed_iff.2 hm⟩

end

section
variable {τ : Type} [AsyncWrite τ] [RecordsWrites τ]

theorem driveFlush_same (s : ChaosStream τ) (c : Clock) :
    DirectionEngine.SameTerm s.engine (s.driveFlush c).2.1.engine := by
  obtain ⟨out, hd⟩ := s.engine.pollFlush_drained s.inner c
  exact hd.sameTerm

theorem driveFlush_recorded {s : ChaosStream τ} (h : s.Recorded) (c : Clock) : (s.driveFlush c).2.1.Recorded :=
  h.same ((healthyRule []).drive h.healthy) (s.driveFlush_same c) _

theorem driveFlush_agreed {s : ChaosStream τ} (h : s.Recorded) (ha : s.Agreed) (c : Clock) :
    (s.driveFlush c).2.1.Agreed :=
  ha.same h (driveFlush_recorded h c).healthy (s.driveFlush_same c) _

omit [AsyncWrite τ] [RecordsWrites τ] in
/-- A transition takes the termination over from the handle and mirrors. -/
theorem transition_agreed {s : ChaosStream τ} (h : s.Recorded) (hlive : s.livePolicy.isSome) (snapshot : PublishedPolicy)
    (c : Clock) : (s.transition snapshot c).1.Recorded ∧ (s.transition snapshot c).1.Agreed := by
  have hterm : (s.engine.replace snapshot s.proxy s.connectionKey s.direction c).1.termination = s.engine.termination :=
    h.healthy.synced
  have hmarked : (s.engine.replace snapshot s.proxy s.connectionKey s.direction c).1.Marked := by
    refine ⟨rfl, fun info hinfo => ?_⟩
    rw [hterm] at hinfo
    exact (h.marked.2 info hinfo).trans (h.direction hlive)
  have hbefore : Recorded { s with
      engine := (s.engine.replace snapshot s.proxy s.connectionKey s.direction c).1
      observedGeneration := snapshot.generation
      evidence := { s.evidence.refreshPolicy snapshot.generation snapshot.plan snapshot.seedNamespace with
        pendingGeneration := 0, transitions := (s.evidence.transitions + 1) % 2 ^ 64 } } :=
    ⟨DirectionEngine.replace_healthy _ _ _ _ _ _, hmarked, fun _ => rfl, fun info he => hterm.trans (h.copied info he)⟩
  exact mirror_agreed hbefore

omit [AsyncWrite τ] [RecordsWrites τ] in
theorem newerPolicy_isSome {s : ChaosStream τ} {snapshot : PublishedPolicy} (h : s.newerPolicy = some snapshot) :
    s.livePolicy.isSome := by
  unfold newerPolicy LivePolicy.newer at h
  split at h
  · cases h
  · next hp => simp [hp]

theorem updateLive_agreed {s : ChaosStream τ} (h : s.Recorded) (ha : s.Agreed) (c : Clock) :
    (s.updateLive c).2.1.Recorded ∧ (s.updateLive c).2.1.Agreed := by
  unfold updateLive
  split
  · exact ⟨h, ha⟩
  · next snapshot hn =>
    -- the pending generation is noted, and the barrier drives
    have h' : Recorded { s with evidence := { s.evidence with pendingGeneration := snapshot.generation } } :=
      ⟨h.healthy, h.marked, h.direction, h.copied⟩
    have hsame : DirectionEngine.SameTerm s.engine (s.engine.barrier s.inner c).2.1 := by
      unfold DirectionEngine.barrier
      split
      · exact ⟨rfl, id, rfl⟩
      · exact s.driveFlush_same c
    have hhealthy := DirectionEngine.barrier_healthy h.healthy s.inner c
    simp only
    split
    · exact ⟨h'.same hhealthy hsame _, Agreed.same h' ha hhealthy hsame _⟩
    · exact transition_agreed (h'.same hhealthy hsame _) (newerPolicy_isSome hn) snapshot _

/-! ## Calls that may record one -/

/-- An acceptance that takes something is mirrored; one that takes nothing leaves
the evidence behind exactly if it finds a termination due. -/
theorem acceptWrite_agreed_iff {s : ChaosStream τ} (h : s.Recorded) (ha : s.Agreed) (hopen : s.engine.isEmpty = false)
    (c : Clock) {bytes : List Byte} (hb : bytes ≠ []) :
    (s.acceptWrite c bytes).2.1.Recorded ∧ ((s.acceptWrite c bytes).2.1.Agreed ↔
      ¬ (s.engine.termination = none ∧ s.engine.RefusesInput c ∧ s.engine.DueAt c.now)) := by
  obtain ⟨ident, k, hl⟩ := h.healthy.lossAt
  have hzero := DirectionEngine.accept_eq_zero_iff hl c hb
  have hkept : ∀ info, s.engine.termination = some info → (s.engine.accept c bytes).2.1.termination = some info := by
    intro info hinfo
    have hacc := DirectionEngine.accept_accepted hl c bytes
    rw [hacc.requested hb, DirectionEngine.refresh_of_recorded (by simp [hinfo]), hinfo]
    rfl
  have hafter : Recorded { s with engine := (s.engine.accept c bytes).2.1 } :=
    ⟨DirectionEngine.accept_healthy h.healthy hopen c bytes, (s.engine.accept_advances c bytes).marked h.marked,
      fun hlive => by
        have hsetup := (DirectionEngine.accept_accepted hl c bytes).setup
        have hdir := congrArg DirectionEngine.Setup.direction (hsetup.trans (s.engine.refresh_passed c).setup)
        exact hdir.trans (h.direction hlive),
      fun info he => hkept info (h.copied info he)⟩
  by_cases hn : (s.engine.accept c bytes).1 = 0
  · have hrefuses := hzero.1 hn
    have hresult : (s.acceptWrite c bytes).2.1 = { s with engine := (s.engine.accept c bytes).2.1 } := by
      simp only [acceptWrite, hn, Nat.lt_irrefl, if_false]
      split
      · rfl
      · rfl
    rw [hresult]
    refine ⟨hafter, ?_⟩
    rw [hafter.agreed_iff]
    cases ht : s.engine.termination with
    | some info => simp [ha.2.1, ht, hkept info ht]
    | none =>
      have hdue := DirectionEngine.accept_refused_isSome h.healthy ht hb hn
      simp only [h.unset ht, hrefuses, true_and]
      rw [← hdue, Option.not_isSome_iff_eq_none]
      exact eq_comm
  · have hrefuses : ¬ s.engine.RefusesInput c := fun hr => hn (hzero.2 hr)
    have hmirror := mirror_agreed (driveFlush_recorded hafter (s.engine.accept c bytes).2.2)
    have hresult : (s.acceptWrite c bytes).2.1 =
        (driveFlush { s with engine := (s.engine.accept c bytes).2.1 } (s.engine.accept c bytes).2.2).2.1.mirror := by
      simp only [acceptWrite, Nat.pos_of_ne_zero hn, if_true]
    rw [hresult]
    exact ⟨hmirror.1, by simp [hmirror.2, hrefuses]⟩

/-- The write finds a termination due for the first time and takes nothing. -/
def Overlooks (s : ChaosStream τ) (c : Clock) (bytes : List Byte) : Prop :=
  s.newerPolicy = none ∧ s.engine.isEmpty = false ∧ s.engine.termination = none ∧ bytes ≠ [] ∧
    (s.driveFlush c).1.isError = false ∧ (s.driveFlush c).2.1.engine.RefusesInput (s.driveFlush c).2.2 ∧
    (s.driveFlush c).2.1.engine.DueAt (s.driveFlush c).2.2.now

instance (s : ChaosStream τ) (c : Clock) (bytes : List Byte) : Decidable (s.Overlooks c bytes) :=
  inferInstanceAs (Decidable (_ ∧ _))

theorem engineWrite_agreed_iff {s : ChaosStream τ} (h : s.Recorded) (ha : s.Agreed) (hn : s.newerPolicy = none)
    (hne : s.engine.isEmpty = false) (c : Clock) (bytes : List Byte) :
    (s.engineWrite c bytes).2.1.Recorded ∧ ((s.engineWrite c bytes).2.1.Agreed ↔ ¬ s.Overlooks c bytes) := by
  have hdriven := driveFlush_recorded h c
  have hagreed := driveFlush_agreed h ha c
  have hterm := (s.driveFlush_same c).termination
  have hempty := (s.driveFlush_isEmpty c).trans hne
  unfold engineWrite Overlooks
  generalize s.driveFlush c = driven at *
  obtain ⟨outcome, s', c'⟩ := driven
  simp only [hn, hne, ← hterm, true_and] at *
  -- behind a drive that did not fail the bytes are offered
  have hoffer : (s'.offer c' bytes).2.1.Recorded ∧ ((s'.offer c' bytes).2.1.Agreed ↔
      ¬ (s'.engine.termination = none ∧ bytes ≠ [] ∧ s'.engine.RefusesInput c' ∧ s'.engine.DueAt c'.now)) := by
    unfold offer
    split
    · next hb =>
      have hb : bytes = [] := by simpa using hb
      exact ⟨hdriven, by simp [hagreed, hb]⟩
    · next hb =>
      have hb : bytes ≠ [] := by simpa using hb
      split
      · next hclosed =>
        have hsome : s'.engine.termination ≠ none := by
          intro hnone
          simp [terminated, DirectionEngine.terminationRequest, hnone] at hclosed
        exact ⟨hdriven, by simp [hagreed, hsome]⟩
      · simpa [hb] using acceptWrite_agreed_iff hdriven hagreed hempty c' hb
  cases outcome with
  | ready answer =>
    cases answer with
    | error error =>
      have hmirror := mirror_agreed hdriven
      exact ⟨hmirror.1, by simp [hmirror.2]⟩
    | ok _ => simpa using hoffer
  | pending => simpa using hoffer

omit [AsyncWrite τ] [RecordsWrites τ] in
/-- Bytes that pass the engine by show no termination. -/
theorem direct_agreed {s : ChaosStream τ} (h : s.Recorded) (ha : s.Agreed) (r : Poll (IoResult Nat) × τ) :
    (s.direct r).2.Recorded ∧ (s.direct r).2.Agreed := by
  unfold direct
  split
  · next n inner =>
    have hnote : (s.evidence.noteDirect n).termination = s.evidence.termination := by
      unfold StreamEvidence.noteDirect
      split
      · rfl
      · rfl
    have hr : Recorded { s with inner, evidence := s.evidence.noteDirect n } :=
      ⟨h.healthy, h.marked, h.direction, fun info he => h.copied info (hnote.symm.trans he)⟩
    exact ⟨hr, hr.agreed_iff.2 (hnote.trans ha.2.1)⟩
  · exact ⟨⟨h.healthy, h.marked, h.direction, h.copied⟩, ha⟩

theorem settledWrite_agreed_iff {s : ChaosStream τ} (h : s.Recorded) (ha : s.Agreed) (hn : s.newerPolicy = none)
    (c : Clock) (bytes : List Byte) :
    (s.settledWrite c bytes).2.1.Recorded ∧ ((s.settledWrite c bytes).2.1.Agreed ↔ ¬ s.Overlooks c bytes) := by
  unfold settledWrite
  split
  · next he =>
    have hdirect := direct_agreed h ha (AsyncWrite.pollWrite s.inner bytes)
    exact ⟨hdirect.1, by simp [hdirect.2, Overlooks, he]⟩
  · next he => exact engineWrite_agreed_iff h ha hn (by simpa using he) c bytes

omit [RecordsWrites τ] in
/-- Behind a transition a write takes something. -/
theorem transition_not_overlooks (s : ChaosStream τ) (snapshot : PublishedPolicy) (c c' : Clock) (bytes : List Byte) :
    ¬ (s.transition snapshot c).1.Overlooks c' bytes := by
  rintro ⟨-, -, ht, -, -, hrefuses, -⟩
  rw [driveFlush_of_nil (s := (s.transition snapshot c).1) rfl] at hrefuses
  exact DirectionEngine.replace_takes _ _ _ _ _ _ _ ht hrefuses

/-- A poll settles the generation and goes on from there: only what it does then can
leave the evidence behind, and behind a transition it does not. -/
theorem settle_agreed_iff {α : Type} {s : ChaosStream τ} (h : s.Recorded) (ha : s.Agreed) (c : Clock)
    (f : ChaosStream τ → Clock → Poll α × ChaosStream τ × Clock) (overlooks : ChaosStream τ → Clock → Prop)
    (hf : ∀ s c, s.Recorded → s.Agreed → s.newerPolicy = none →
      (f s c).2.1.Recorded ∧ ((f s c).2.1.Agreed ↔ ¬ overlooks s c))
    (hfresh : ∀ (s : ChaosStream τ) snapshot c c', ¬ overlooks (s.transition snapshot c).1 c')
    (hnewer : s.newerPolicy ≠ none → ¬ overlooks s c) :
    let r : Poll α × ChaosStream τ × Clock := match s.updateLive c with
      | (.pending, s, c) => (.pending, s, c)
      | (.ready (), s, c) => f s c
    r.2.1.Recorded ∧ (r.2.1.Agreed ↔ ¬ overlooks s c) := by
  have hupdated := updateLive_agreed h ha c
  cases hn : s.newerPolicy with
  | none =>
    simp only [updateLive, hn]
    exact hf s c h ha hn
  | some snapshot =>
    have hnot := hnewer (by simp [hn])
    simp only
    split
    · next hr =>
      rw [hr] at hupdated
      exact ⟨hupdated.1, by simp [hupdated.2, hnot]⟩
    · next s' c' hr =>
      rw [hr] at hupdated
      have hnot' : ¬ overlooks s' c' := by
        simp only [updateLive, hn] at hr
        split at hr
        · cases hr
        · cases hr
          exact hfresh _ _ _ _
      have hgo := hf s' c' hupdated.1 hupdated.2 (updateLive_settled hr)
      exact ⟨hgo.1, by simp [hgo.2, hnot, hnot']⟩

theorem pollWrite_agreed_iff {s : ChaosStream τ} (h : s.Recorded) (ha : s.Agreed) (c : Clock) (bytes : List Byte) :
    (s.pollWrite c bytes).2.1.Recorded ∧ ((s.pollWrite c bytes).2.1.Agreed ↔ ¬ s.Overlooks c bytes) :=
  settle_agreed_iff h ha c _ _ (fun _ c h ha hn => settledWrite_agreed_iff h ha hn c bytes)
    (fun s snapshot c c' => transition_not_overlooks s snapshot c c' bytes) fun hn ho => hn ho.1

omit [AsyncWrite τ] [RecordsWrites τ] in
/-- An engine that may have recorded what is due. -/
theorem Recorded.passed {s : ChaosStream τ} (h : s.Recorded) {engine : DirectionEngine}
    (hp : DirectionEngine.Passed s.engine [] engine) (hm : engine.Marked) : Recorded { s with engine } where
  healthy := hp.healthy h.healthy
  marked := hm
  direction hl := (congrArg DirectionEngine.Setup.direction hp.setup).trans (h.direction hl)
  copied info he := hp.recorded (h.copied info he)

omit [AsyncWrite τ] [RecordsWrites τ] in
/-- The evidence is left behind exactly if this is where the termination is recorded. -/
theorem Recorded.passed_agreed_iff {s : ChaosStream τ} (h : s.Recorded) (ha : s.Agreed) {engine : DirectionEngine}
    (hp : DirectionEngine.Passed s.engine [] engine) (hm : engine.Marked) :
    Agreed { s with engine } ↔ ¬ (s.engine.termination = none ∧ engine.termination.isSome) := by
  rw [(h.passed hp hm).agreed_iff]
  cases ht : s.engine.termination with
  | some info => simp [ha.2.1, ht, hp.recorded ht]
  | none =>
    simp only [h.unset ht, true_and]
    rw [Option.not_isSome_iff_eq_none]
    exact eq_comm

/-- A vectored write that has no room finds a termination due for the first time. -/
def OverlooksFull (s : ChaosStream τ) (c : Clock) : Prop :=
  s.engine.termination = none ∧ (s.driveFlush c).1.isError = false ∧
    (s.driveFlush c).2.1.engine.DueAt (s.driveFlush c).2.2.now

theorem vectoredFull_agreed_iff {s : ChaosStream τ} (h : s.Recorded) (ha : s.Agreed) (c : Clock) :
    (s.vectoredFull c).2.1.Recorded ∧ ((s.vectoredFull c).2.1.Agreed ↔ ¬ s.OverlooksFull c) := by
  have hdriven := driveFlush_recorded h c
  have hagreed := driveFlush_agreed h ha c
  have hterm := (s.driveFlush_same c).termination
  unfold vectoredFull OverlooksFull
  generalize s.driveFlush c = driven at *
  obtain ⟨outcome, s', c'⟩ := driven
  simp only [← hterm] at *
  have hstalled : (s'.stalled c').2.1.Recorded ∧ ((s'.stalled c').2.1.Agreed ↔
      ¬ (s'.engine.termination = none ∧ s'.engine.DueAt c'.now)) := by
    have hp := s'.engine.refresh_passed c'
    have hm := (s'.engine.refresh_advances c').marked hdriven.marked
    have hresult : (s'.stalled c').2.1 = { s' with engine := (s'.engine.refreshSyncTerminations c').1 } := by
      unfold stalled
      simp only
      split
      · rfl
      · rfl
    rw [hresult]
    refine ⟨hdriven.passed hp hm, ?_⟩
    rw [hdriven.passed_agreed_iff hagreed hp hm]
    constructor
    · intro hnot hdue
      exact hnot ⟨hdue.1, (DirectionEngine.refresh_isSome hdue.1 c').2 hdue.2⟩
    · intro hnot hdue
      exact hnot ⟨hdue.1, (DirectionEngine.refresh_isSome hdue.1 c').1 hdue.2⟩
  match outcome with
  | .ready (.error error) => exact ⟨hdriven, by simp [hagreed]⟩
  | .ready (.ok ()) => simpa using hstalled
  | .pending => simpa using hstalled

/-- The vectored write takes nothing and finds a termination due for the first
time. -/
def OverlooksVectored (s : ChaosStream τ) (c : Clock) (bufs : List (List Byte)) : Prop :=
  s.newerPolicy = none ∧ s.engine.isEmpty = false ∧
    if ¬ s.engine.isPreservingOnly then s.Overlooks c bufs.flatten
    else if s.engine.boundedAcceptCapacity = 0 then s.OverlooksFull c
    else s.Overlooks c (DirectionEngine.joinPrefix bufs
      (min (DirectionEngine.totalLength bufs) s.engine.boundedAcceptCapacity))

/-- What a vectored write does once the generation is settled. -/
def settledVectored (s : ChaosStream τ) (c : Clock) (bufs : List (List Byte)) :
    Poll (IoResult Nat) × ChaosStream τ × Clock :=
  if s.engine.isEmpty then
    let (outcome, s) := s.direct (AsyncWrite.pollWriteVectored s.inner bufs)
    (outcome, s, c)
  else if ¬ s.engine.isPreservingOnly then s.pollWrite c bufs.flatten
  else if s.engine.boundedAcceptCapacity = 0 then s.vectoredFull c
  else s.pollWrite c (DirectionEngine.joinPrefix bufs
    (min (DirectionEngine.totalLength bufs) s.engine.boundedAcceptCapacity))

omit [RecordsWrites τ] in
theorem pollWriteVectored_eq (s : ChaosStream τ) (c : Clock) (bufs : List (List Byte)) :
    s.pollWriteVectored c bufs = match s.updateLive c with
      | (.pending, s, c) => (.pending, s, c)
      | (.ready (), s, c) => s.settledVectored c bufs := rfl

theorem settledVectored_agreed_iff {s : ChaosStream τ} (h : s.Recorded) (ha : s.Agreed) (hn : s.newerPolicy = none)
    (c : Clock) (bufs : List (List Byte)) :
    (s.settledVectored c bufs).2.1.Recorded ∧ ((s.settledVectored c bufs).2.1.Agreed ↔ ¬ s.OverlooksVectored c bufs) := by
  unfold settledVectored OverlooksVectored
  split
  · next he =>
    have hdirect := direct_agreed h ha (AsyncWrite.pollWriteVectored s.inner bufs)
    exact ⟨hdirect.1, by simp [hdirect.2, he]⟩
  next he =>
  have he : s.engine.isEmpty = false := by simpa using he
  simp only [hn, he, true_and]
  split
  · exact pollWrite_agreed_iff h ha c _
  · split
    · exact vectoredFull_agreed_iff h ha c
    · exact pollWrite_agreed_iff h ha c _

omit [RecordsWrites τ] in
theorem transition_not_overlooksVectored (s : ChaosStream τ) (snapshot : PublishedPolicy) (c c' : Clock)
    (bufs : List (List Byte)) : ¬ (s.transition snapshot c).1.OverlooksVectored c' bufs := by
  rintro ⟨-, -, hsome⟩
  split at hsome
  · exact transition_not_overlooks _ _ _ _ _ hsome
  · split at hsome
    · next hz => exact DirectionEngine.replace_bounded _ _ _ _ _ _ hsome.1 hz
    · exact transition_not_overlooks _ _ _ _ _ hsome

theorem pollWriteVectored_agreed_iff {s : ChaosStream τ} (h : s.Recorded) (ha : s.Agreed) (c : Clock)
    (bufs : List (List Byte)) :
    (s.pollWriteVectored c bufs).2.1.Recorded ∧
      ((s.pollWriteVectored c bufs).2.1.Agreed ↔ ¬ s.OverlooksVectored c bufs) := by
  rw [pollWriteVectored_eq]
  exact settle_agreed_iff h ha c _ _ (fun _ c h ha hn => settledVectored_agreed_iff h ha hn c bufs)
    (fun s snapshot c c' => transition_not_overlooksVectored s snapshot c c' bufs) fun hn ho => hn ho.1

/-- Flushing and shutting down record nothing and mirror. -/
theorem pollFlush_agreed {s : ChaosStream τ} (h : s.Recorded) (ha : s.Agreed) (c : Clock) :
    (s.pollFlush c).2.1.Recorded ∧ (s.pollFlush c).2.1.Agreed := by
  have hsettle := settle_agreed_iff h ha c
    (fun s c => ((s.driveFlush c).1, (s.driveFlush c).2.1.mirror, (s.driveFlush c).2.2)) (fun _ _ => False)
    (fun s c h _ _ => by simpa using mirror_agreed (driveFlush_recorded h c)) (by simp) (by simp)
  exact ⟨hsettle.1, hsettle.2.2 id⟩

theorem pollShutdown_agreed {s : ChaosStream τ} (h : s.Recorded) (ha : s.Agreed) (c : Clock) :
    (s.pollShutdown c).2.1.Recorded ∧ (s.pollShutdown c).2.1.Agreed := by
  have hdown : ∀ (s : ChaosStream τ) c, s.Recorded →
      Recorded { s with engine := (s.engine.pollShutdown s.inner c).2.1, inner := (s.engine.pollShutdown s.inner c).2.2.1 } := by
    intro s c h
    obtain ⟨out, hp, -⟩ := s.engine.pollShutdown_passed s.inner c
    exact h.same (hp.healthy h.healthy) (s.engine.pollShutdown_sameTerm s.inner c) _
  have hsettle := settle_agreed_iff h ha c
    (fun s c => ((s.engine.pollShutdown s.inner c).1,
      mirror { s with engine := (s.engine.pollShutdown s.inner c).2.1, inner := (s.engine.pollShutdown s.inner c).2.2.1 },
      (s.engine.pollShutdown s.inner c).2.2.2)) (fun _ _ => False)
    (fun s c h _ _ => by simpa using mirror_agreed (hdown s c h)) (by simp) (by simp)
  exact ⟨hsettle.1, hsettle.2.2 id⟩

theorem pollRead_agreed [AsyncRead τ] {s : ChaosStream τ} (h : s.Recorded) (ha : s.Agreed) (c : Clock) (cap : Nat) :
    (s.pollRead c cap).2.1.Recorded ∧ (s.pollRead c cap).2.1.Agreed := by
  have keep : ∀ {s : ChaosStream τ} (inner : τ), s.Recorded → s.Agreed →
      Recorded { s with inner } ∧ Agreed { s with inner } :=
    fun _ h ha => ⟨⟨h.healthy, h.marked, h.direction, h.copied⟩, ha⟩
  unfold pollRead
  split
  · exact keep _ h ha
  · have hmirror := mirror_agreed (driveFlush_recorded h c)
    have hread := keep (AsyncRead.pollRead (s.driveFlush c).2.1.mirror.inner cap).2 hmirror.1 hmirror.2
    simp only
    split
    · exact hread
    · exact hread

omit [AsyncWrite τ] [RecordsWrites τ] in
/-- A poll for the termination does not mirror: it leaves the evidence behind
exactly if it is the first to find one due. -/
theorem pollTermination_agreed_iff {s : ChaosStream τ} (h : s.Recorded) (ha : s.Agreed) (c : Clock) :
    (s.pollTermination c).2.1.Recorded ∧ ((s.pollTermination c).2.1.Agreed ↔
      ¬ (s.engine.isEmpty = false ∧ s.engine.termination = none ∧ s.engine.DuePolled c)) := by
  unfold pollTermination
  split
  · next he => exact ⟨h, by simp [ha, he]⟩
  · next he =>
    have hp := s.engine.pollDueTermination_passed c
    have hm := DirectionEngine.pollDueTermination_marked h.marked c
    have hiff : Agreed { s with engine := (s.engine.pollDueTermination c).2.1 } ↔
        ¬ (s.engine.isEmpty = false ∧ s.engine.termination = none ∧ s.engine.DuePolled c) := by
      rw [h.passed_agreed_iff ha hp hm]
      have he : s.engine.isEmpty = false := by simpa using he
      simp only [he, true_and]
      constructor
      · intro hnot hdue
        exact hnot ⟨hdue.1, (DirectionEngine.pollDueTermination_isSome hdue.1 c).2 hdue.2⟩
      · intro hnot hdue
        exact hnot ⟨hdue.1, (DirectionEngine.pollDueTermination_isSome hdue.1 c).1 hdue.2⟩
    simp only
    split
    · exact ⟨h.passed hp hm, hiff⟩
    · exact ⟨h.passed hp hm, hiff⟩

end

end ChaosStream

/-! ## Runs -/

namespace StreamRun
variable {τ : Type} [AsyncWrite τ] [AsyncRead τ]

/-- The call is the first to find a termination due, and returns without mirroring
the engine. -/
def Unmirrored (s : StreamRun τ) : Op → Prop
  | .write bytes => s.stream.Overlooks s.clock bytes
  | .writeVectored bufs => s.stream.OverlooksVectored s.clock bufs
  | .pollTermination =>
    s.stream.engine.isEmpty = false ∧ s.stream.engine.termination = none ∧ s.stream.engine.DuePolled s.clock
  | .flush | .shutdown | .read _ | .publish _ _ => False

theorem step_agreed_iff (s : StreamRun τ) (op : Op) (ha : s.stream.Agreed) (h : s.stream.Recorded) :
    (step s op).stream.Recorded ∧ ((step s op).stream.Agreed ↔ ¬ s.Unmirrored op) := by
  have always : ∀ {stream : ChaosStream (Tap τ)}, stream.Recorded ∧ stream.Agreed →
      stream.Recorded ∧ (stream.Agreed ↔ ¬ False) := fun h => ⟨h.1, by simp [h.2]⟩
  cases op with
  | write bytes => exact ChaosStream.pollWrite_agreed_iff h ha s.clock bytes
  | writeVectored bufs => exact ChaosStream.pollWriteVectored_agreed_iff h ha s.clock bufs
  | flush => exact always (ChaosStream.pollFlush_agreed h ha s.clock)
  | shutdown => exact always (ChaosStream.pollShutdown_agreed h ha s.clock)
  | read cap => exact always (ChaosStream.pollRead_agreed h ha s.clock cap)
  | pollTermination => exact ChaosStream.pollTermination_agreed_iff h ha s.clock
  | publish plan seed =>
    refine always ⟨⟨h.healthy, h.marked, fun hl => h.direction ?_, h.copied⟩, ha⟩
    simpa [step, publish] using hl

omit [AsyncWrite τ] [AsyncRead τ] in
/-- A stream starts with no termination anywhere. -/
theorem Started.recorded {s : StreamRun τ} (h : Started s) : s.stream.Recorded ∧ s.stream.Agreed := by
  have hengine := h.engine
  have hhealthy := h.healthy
  have hmarked : s.stream.engine.Marked ∧ s.stream.engine.termination = none := by
    rcases hengine with ⟨plan, ident, now, he⟩ | ⟨c, he⟩
    · rw [he]
      exact ⟨⟨rfl, fun _ h => by cases h⟩, rfl⟩
    · rw [he]
      exact ⟨⟨rfl, fun _ h => by cases h⟩, rfl⟩
  have hnone : s.stream.evidence.termination = none := by
    rcases h.fresh.2.1 with ⟨generation, plan, seed, hev⟩ | hev
    · rw [hev]
      rfl
    · rw [hev]
  have hr : s.stream.Recorded :=
    ⟨hhealthy, hmarked.1, h.fresh.2.2, fun info he => by rw [hnone] at he; cases he⟩
  exact ⟨hr, hr.agreed_of_none hmarked.2⟩

omit [AsyncRead τ] in
/-- What is recorded stays recorded. -/
theorem keptRule (info : TerminationInfo) (data : List Byte) :
    ChaosStream.PollRule (fun (s : ChaosStream (Tap τ)) _ => s.engine.Healthy ∧ s.engine.termination = some info)
      (fun s _ => s.engine.Healthy ∧ s.engine.termination = some info) data where
  weaken h := h
  update {s c} h := by
    refine ⟨ChaosStream.updateLive_healthy h.1 c, ?_⟩
    unfold ChaosStream.updateLive
    split
    · exact h.2
    · obtain ⟨out, hp, -⟩ := s.engine.barrier_passed s.inner c
      simp only
      split
      · exact hp.recorded h.2
      · exact (DirectionEngine.replace_closed (hp.healthy h.1) (hp.recorded h.2) _ _ _ _ _).recorded
  drive {s c} h := by
    obtain ⟨out, hp, -⟩ := s.engine.pollFlush_passed s.inner c
    exact ⟨hp.healthy h.1, hp.recorded h.2⟩
  accept {s c bytes} h hne _ hb _ := by
    obtain ⟨ident, k, hl⟩ := h.1.lossAt
    refine ⟨DirectionEngine.accept_healthy h.1 hne c bytes, ?_⟩
    simp only
    rw [(DirectionEngine.accept_accepted hl c bytes).requested hb,
      DirectionEngine.refresh_of_recorded (by simp [h.2]), h.2]
    rfl
  direct _ h _ := h
  passed _ _ h hp _ := ⟨hp.healthy h.1, hp.recorded h.2⟩
  evidence _ h := h

theorem run_keeps {s : StreamRun τ} (h : s.stream.engine.Healthy) {info : TerminationInfo}
    (ht : s.stream.engine.termination = some info) (ops : List Op) :
    (run step s ops).stream.engine.termination = some info :=
  (run_inv (fun s : StreamRun τ => s.stream.engine.Healthy ∧ s.stream.engine.termination = some info)
    (fun _ op hs => step_rule (keptRule info op.data) hs fun _ _ _ => hs) ⟨h, ht⟩ ops).2

/-- In a run from a new stream, engine, handle and evidence agree after every call
and what they show first stays, exactly if no call that is the first to find a
termination due returns without mirroring it. -/
theorem first_termination_iff {s : StreamRun τ} (h : Started s) (ops : List Op) :
    (∀ pre, pre <+: ops → (run step s pre).stream.Agreed ∧
        ∀ info, (run step s pre).stream.engine.termination = some info →
          (run step s ops).stream.engine.termination = some info) ↔
      Along step (fun s op => ¬ s.Unmirrored op) s ops := by
  obtain ⟨hrecorded, hagreed⟩ := h.recorded
  -- what is recorded stays, whatever the calls
  have hkept : ∀ pre, pre <+: ops → ∀ info, (run step s pre).stream.engine.termination = some info →
      (run step s ops).stream.engine.termination = some info := by
    rintro pre ⟨post, rfl⟩ info ht
    rw [run_append]
    exact run_keeps (Reachable.healthy ⟨s, pre, h, rfl⟩) ht post
  have hiff : (∀ pre, pre <+: ops → (run step s pre).stream.Agreed ∧ (run step s pre).stream.Recorded) ↔
      Along step (fun s op => ¬ s.Unmirrored op) s ops := by
    refine prefixes_iff_along (I := fun s : StreamRun τ => s.stream.Agreed ∧ s.stream.Recorded) (J := fun _ => True)
      (fun _ _ _ => trivial) (fun s op hi _ => ?_) ⟨hagreed, hrecorded⟩
      trivial ops
    obtain ⟨hr, hiff⟩ := step_agreed_iff s op hi.1 hi.2
    simp [hr, hiff]
  -- up to the first disagreement the evidence only lags
  have hrec : (∀ pre, pre <+: ops → (run step s pre).stream.Agreed) →
      ∀ pre, pre <+: ops → (run step s pre).stream.Recorded := by
    intro hpre pre
    induction pre using List.reverseRecOn with
    | nil => exact fun _ => hrecorded
    | append_singleton pre op ih =>
      intro hp
      have hp' := (List.prefix_append pre [op]).trans hp
      rw [run_append]
      exact (step_agreed_iff _ op (hpre pre hp') (ih hp')).1
  rw [← hiff]
  constructor
  · intro hpre pre hp
    exact ⟨(hpre pre hp).1, hrec (fun pre hp => (hpre pre hp).1) pre hp⟩
  · exact fun hpre pre hp => ⟨(hpre pre hp).1, hkept pre hp⟩

/-- A disconnect that is due at once. -/
def cutPlan : FaultPlan := ⟨[cut 0 true]⟩

theorem first_termination_written :
    let s := scripted {} cutPlan rfl (.still 0)
    (run step s [.write [7]]).stream.evidence.termination = some ⟨.hardReset, .upstream, some "cut"⟩ ∧
      (run step s [.write [7]]).stream.Agreed := by
  have htaken : ¬ (scripted {} cutPlan rfl (.still 0)).stream.Overlooks (scripted {} cutPlan rfl (.still 0)).clock [7] := by
    decide
  have hstarted := start_started ({} : Script) (.new cutPlan 0 rfl) "proxy" 1 .upstream (.still 0)
  exact ⟨by decide, ((first_termination_iff hstarted [.write [7]]).2 ⟨htaken, trivial⟩ _ (List.prefix_refl _)).1⟩

/-- `poll_termination` reports the disconnect, and the evidence shows none. -/
theorem polled_termination_unseen :
    ¬ ∀ (s : StreamRun Script), Started s → ∀ ops, (run step s ops).stream.Agreed := by
  intro hall
  have hagreed := hall _ (start_started {} (.new cutPlan 0 rfl) "proxy" 1 .upstream (.still 0)) [.pollTermination]
  exact absurd hagreed.2.1 (by decide)

end StreamRun

end Eggchaos
