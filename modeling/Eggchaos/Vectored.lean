import Eggchaos.Terminated
/-!
# Vectored and scalar writes

`poll_write_vectored` hands the concatenation of its slices to `poll_write`, or,
under a plan that only preserves bytes, the prefix that fits. It computes what
fits before `poll_write` drives the queue, so a drive that frees room makes the
two differ: the scalar write takes more, and a vectored write that found the
queue full is pending though there is room and nothing is left to wake it.
-/

namespace Eggchaos
open Lib

namespace DirectionEngine

/-- With nothing queued an engine has room, so only the end of the stream-loss
offset makes it refuse. -/
theorem refusesInput_of_nil {e : DirectionEngine} (h : e.Healthy) (hq : e.queue = []) (hlim : e.limitAvailable ≠ 0)
    (c : Clock) :
    e.RefusesInput c ↔ e.discardsAt c = false ∧ e.lossy = true ∧ e.streamLossOffset = u64Max := by
  have hroom := h.room
  have hbuf : e.buffered = 0 := by simp [h.buffered, hq]
  unfold RefusesInput Full
  cases e.lossy with
  | true => simp [hlim, hbuf, hroom.ne']
  | false => simp [hlim, hbuf, hroom.ne']

/-- A call that takes nothing does what its refresh does. -/
theorem accept_none {e : DirectionEngine} (h : e.Healthy) (hlim : e.limitAvailable ≠ 0) {c : Clock} {data : List Byte}
    (hne : data ≠ []) (hz : (e.accept c data).1 = 0) :
    (e.accept c data).2.1.queue = (e.refreshSyncTerminations c).1.queue ∧
      (e.accept c data).2.1.termination = (e.refreshSyncTerminations c).1.termination := by
  obtain ⟨ident, k, hl⟩ := h.lossAt
  have hacc := accept_accepted hl c data
  rw [hz] at hacc
  have hlimit : (e.accept c data).2.1.limitAvailable = e.limitAvailable := by
    simp only [limitAvailable, hacc.limit, (e.refresh_passed c).limit]
    cases e.remainingLimit with
    | none => rfl
    | some p => rfl
  refine ⟨hacc.toEnqueued.queue_eq (by simp [survivors]), ?_⟩
  rw [hacc.requested hne, exhaustedInfo_eq_none (hlimit ▸ hlim)]
  simp

end DirectionEngine

namespace ChaosStream
section
variable {τ : Type} [AsyncWrite τ]

/-! ## Behind the drive -/

theorem acceptWrite_ok {s : ChaosStream τ} (h : s.engine.Healthy) (hp : s.engine.isPreservingOnly) (c : Clock)
    {data : List Byte} (hne : data ≠ []) (hroom : 0 < s.engine.room data) :
    (s.acceptWrite c data).1 = .ready (.ok (s.engine.room data)) := by
  have hacc := DirectionEngine.accept_room h hp c hne
  unfold acceptWrite
  simp only [hacc, hroom, if_true]

/-- Without room a write ends like a vectored one that found none. -/
theorem acceptWrite_stalled {s : ChaosStream τ} (h : s.engine.Healthy) (hp : s.engine.isPreservingOnly) (c : Clock)
    {data : List Byte} (hne : data ≠ []) (hroom : s.engine.room data = 0) :
    (s.stalled c).1 = (s.acceptWrite c data).1 ∧ (s.stalled c).2.1.engine = (s.acceptWrite c data).2.1.engine := by
  have hacc := DirectionEngine.accept_preserving h.capped hp c hne
  simp only [hroom, if_true] at hacc
  unfold acceptWrite stalled
  rw [hacc]
  simp only [Nat.lt_irrefl, if_false]
  split
  · exact ⟨rfl, rfl⟩
  · exact ⟨rfl, rfl⟩

omit [AsyncWrite τ] in
theorem stalled_not_ok (s : ChaosStream τ) (c : Clock) (n : Nat) : (s.stalled c).1 ≠ .ready (.ok n) := by
  unfold stalled
  simp only
  split
  · simp
  · simp

/-- The bound of a vectored write is out of date once the drive has turned `s`
into `s'`: there was no room for an empty write, or there was too little for the
data and the drive has made some. -/
def Stale (s s' : ChaosStream τ) (data : List Byte) : Prop :=
  if data.isEmpty then s.engine.boundedAcceptCapacity = 0
  else s'.terminated = false ∧
    s.engine.maxBuffer - s.engine.buffered < min data.length s.engine.limitAvailable ∧
    s'.engine.buffered < s.engine.buffered

instance (s s' : ChaosStream τ) (data : List Byte) : Decidable (Stale s s' data) :=
  inferInstanceAs (Decidable (ite _ _ _))

/-- Two writes ended alike: the same outcome and the same engine. -/
def Alike (r r' : Poll (IoResult Nat) × ChaosStream τ × Clock) : Prop := r.1 = r'.1 ∧ r.2.1.engine = r'.2.1.engine

/-- Where the engine is asked. -/
theorem alike_accept {s s' : ChaosStream τ} {out : List Byte} (h : s.engine.Healthy)
    (hpass : DirectionEngine.Passed s.engine out s'.engine) (hp : s.engine.isPreservingOnly) (c : Clock)
    {data : List Byte} (hne : data ≠ []) (hne' : s.engine.boundedAcceptCapacity ≠ 0 →
      data.take s.engine.boundedAcceptCapacity ≠ []) :
    Alike (if s.engine.boundedAcceptCapacity = 0 then s'.stalled c
        else s'.acceptWrite c (data.take s.engine.boundedAcceptCapacity)) (s'.acceptWrite c data) ↔
      ¬ (s.engine.maxBuffer - s.engine.buffered < min data.length s.engine.limitAvailable ∧
        s'.engine.buffered < s.engine.buffered) := by
  have h' := hpass.healthy h
  have hp' : s'.engine.isPreservingOnly := by
    rw [DirectionEngine.isPreservingOnly, hpass.plan]
    exact hp
  have hmax := hpass.maxBuffer
  have hlim := hpass.limitAvailable
  have hbuf := hpass.buffered
  have hfits := h.fits
  have hlen : 0 < data.length := List.length_pos_iff.2 hne
  have hroom : s'.engine.room data =
      min (min data.length s.engine.limitAvailable) (s.engine.maxBuffer - s'.engine.buffered) := by
    rw [DirectionEngine.room, hlim, hmax]
  have hbound : s.engine.boundedAcceptCapacity =
      min s.engine.limitAvailable (s.engine.maxBuffer - s.engine.buffered) := rfl
  split
  · next hz =>
    rcases Nat.eq_zero_or_pos (s'.engine.room data) with h₀ | hpos
    · have halike := acceptWrite_stalled h' hp' c hne h₀
      simp only [Alike, halike, and_self, true_iff]
      omega
    · have hok := acceptWrite_ok h' hp' c hne hpos
      simp only [Alike, hok, stalled_not_ok, false_and, false_iff, not_not]
      omega
  · next hz =>
    by_cases hstale : s.engine.maxBuffer - s.engine.buffered < min data.length s.engine.limitAvailable ∧
        s'.engine.buffered < s.engine.buffered
    · -- Both take something, the scalar write more.
      have hroom' : s'.engine.room (data.take s.engine.boundedAcceptCapacity) =
          s.engine.maxBuffer - s.engine.buffered := by
        rw [DirectionEngine.room, hlim, hmax, List.length_take]
        omega
      have hok := acceptWrite_ok h' hp' c hne (by omega)
      have hok' := acceptWrite_ok h' hp' c (hne' hz) (by omega)
      simp only [Alike, hok, hok', Poll.ready.injEq, Except.ok.injEq, hstale, and_self, not_true_eq_false, iff_false]
      rintro ⟨heq, -⟩
      omega
    · have hsame : s'.acceptWrite c (data.take s.engine.boundedAcceptCapacity) = s'.acceptWrite c data := by
        unfold acceptWrite
        rw [DirectionEngine.accept_take h'.capped hp' c (by omega) (hne' hz)]
      simp only [Alike, hsame, and_self, true_iff]
      exact hstale

/-- Behind the drive, the vectored write and the scalar one end alike exactly if
the bound is not out of date. -/
theorem alike_offer {s s' : ChaosStream τ} {out : List Byte} (h : s.engine.Healthy)
    (hpass : DirectionEngine.Passed s.engine out s'.engine) (hp : s.engine.isPreservingOnly) (c : Clock)
    (data : List Byte) :
    Alike (if s.engine.boundedAcceptCapacity = 0 then s'.stalled c
        else s'.offer c (data.take s.engine.boundedAcceptCapacity)) (s'.offer c data) ↔
      ¬ Stale s s' data := by
  rcases eq_or_ne data [] with rfl | hne
  · -- An empty write is answered at once, unless the bound is zero.
    simp only [Stale, List.isEmpty_nil, if_true, List.take_nil]
    split
    · next hz => simp [Alike, offer, stalled_not_ok, hz]
    · next hz => simp [Alike, hz]
  have hdata : data.isEmpty = false := by simpa using hne
  have htake : s.engine.boundedAcceptCapacity ≠ 0 → data.take s.engine.boundedAcceptCapacity ≠ [] := by
    intro hz hnil
    rcases List.take_eq_nil_iff.1 hnil with h₀ | h₀
    · exact hz h₀
    · exact hne h₀
  cases hterm : s'.terminated with
  | true =>
    -- The termination ends all of them.
    have hoffer : ∀ bytes, bytes ≠ [] →
        s'.offer c bytes = (.ready (.error (terminatedError s'.engine.termination)), s', c) := by
      intro bytes hb
      simp [offer, hterm, hb]
    have hrec : s'.engine.termination.isSome := by
      have hboth := hterm
      simp only [terminated, DirectionEngine.terminationRequest, Option.isSome_map, Bool.and_eq_true] at hboth
      exact hboth.1
    have hstalled : s'.stalled c = (.ready (.error (terminatedError s'.engine.termination)), s', c) := by
      simp only [stalled, DirectionEngine.refresh_of_recorded hrec, hterm, if_true]
    rw [hoffer data hne]
    split
    · simp [hstalled, Alike, Stale, hdata, hterm]
    · next hz => simp [hoffer _ (htake hz), Alike, Stale, hdata, hterm]
  | false =>
    have hoffer : ∀ bytes, bytes ≠ [] → s'.offer c bytes = s'.acceptWrite c bytes := by
      intro bytes hb
      simp [offer, hterm, hb]
    simp only [Stale, hdata, Bool.false_eq_true, if_false, hterm, true_and]
    rw [← alike_accept h hpass hp c hne htake, hoffer data hne]
    split
    · rfl
    · next hz => rw [hoffer _ (htake hz)]

/-! ## Wakeups -/

/-- The poll has left a wakeup behind: its barrier or its drive is pending, on a
timer or on the transport, or the transport's own write is. -/
def wakes (s : ChaosStream τ) (c : Clock) (write : τ → Poll (IoResult Nat) × τ) : Bool :=
  match s.updateLive c with
  | (.pending, _, _) => true
  | (.ready (), s, c) => if s.engine.isEmpty then (write s.inner).1.isPending else (s.driveFlush c).1.isPending

/-- The write is pending with nothing queued, and nothing will wake its task. -/
def Stuck (s : ChaosStream τ) (c : Clock) (write : τ → Poll (IoResult Nat) × τ)
    (r : Poll (IoResult Nat) × ChaosStream τ × Clock) : Prop :=
  (r.1.isPending = true ∧ r.2.1.engine.queueIsEmpty = true) ∧ s.wakes c write = false

/-- With nothing queued the engine takes no byte, and has no termination to
report: stream loss has used up the `u64` offset. -/
def Deaf (s : ChaosStream τ) (c : Clock) (data : List Byte) : Prop :=
  data ≠ [] ∧ (s.engine.refreshSyncTerminations c).1.terminationRequest.isSome = false ∧
    s.engine.discardsAt c = false ∧ s.engine.lossy = true ∧ s.engine.streamLossOffset = u64Max

instance (s : ChaosStream τ) (c : Clock) (data : List Byte) : Decidable (s.Deaf c data) :=
  inferInstanceAs (Decidable (_ ∧ _))

theorem offer_pending_iff {s : ChaosStream τ} (h : s.engine.Healthy) (hq : s.engine.queue = []) (c : Clock)
    (data : List Byte) :
    ((s.offer c data).1.isPending = true ∧ (s.offer c data).2.1.engine.queueIsEmpty = true) ↔ s.Deaf c data := by
  obtain ⟨ident, k, hl⟩ := h.lossAt
  rcases eq_or_ne data [] with rfl | hne
  · simp [offer, Deaf]
  rw [offer, if_neg (by simpa using hne)]
  by_cases hrec : s.engine.termination.isSome
  · have hterm : s.terminated = true := by
      simp [terminated, DirectionEngine.terminationRequest, hrec, DirectionEngine.queueIsEmpty, hq]
    simp [hterm, Deaf, DirectionEngine.refresh_of_recorded hrec, DirectionEngine.terminationRequest, hrec]
  have hterm : s.terminated = false := by
    simpa [terminated, DirectionEngine.terminationRequest, DirectionEngine.queueIsEmpty, hq] using hrec
  -- A used-up limit has its termination recorded, so the limit is not what refuses.
  have hlim : s.engine.limitAvailable ≠ 0 := fun h₀ =>
    hrec (h.exhausted (DirectionEngine.exhaustedInfo_isSome.2 h₀))
  have hzero := DirectionEngine.accept_eq_zero_iff hl c hne
  rw [DirectionEngine.refusesInput_of_nil h hq hlim] at hzero
  have hnone := DirectionEngine.accept_none (c := c) h hlim hne
  have hdrained := (s.engine.refresh_passed c).drained h.solid hq
  rw [hterm, if_neg (by simp)]
  unfold acceptWrite
  generalize s.engine.accept c data = taken at *
  obtain ⟨n, e, c'⟩ := taken
  simp only at hzero hnone ⊢
  split
  · next hpos =>
    constructor
    · simp
    · rintro ⟨-, -, hrest⟩
      exact absurd (hzero.2 hrest) hpos.ne'
  · next hpos =>
    obtain rfl : n = 0 := by omega
    obtain ⟨hqueue, hrequest⟩ := hnone rfl
    have hrest := hzero.1 rfl
    simp only [Deaf, hne, ne_eq, not_false_eq_true, hrest, and_true, true_and, terminated,
      DirectionEngine.terminationRequest, DirectionEngine.queueIsEmpty, hqueue, hdrained, hrequest, List.isEmpty_nil,
      Bool.and_true]
    split
    · next hsome => simp [hsome]
    · next hnone => simpa [hqueue, hdrained] using hnone

/-! ## The whole write -/

/-- When a vectored and a scalar write of the same bytes agree and none of them is
stuck. Without a plan the transport's two operations must agree; under a
preserving plan the drive must not put the bound out of date. -/
def Concurs (s : ChaosStream τ) (c : Clock) (bufs : List (List Byte)) : Prop :=
  match s.updateLive c with
  | (.pending, _, _) => True
  | (.ready (), s, c) =>
    if s.engine.isEmpty then
      (AsyncWrite.pollWriteVectored s.inner bufs).1 = (AsyncWrite.pollWrite s.inner bufs.flatten).1
    else
      let (outcome, s', c') := s.driveFlush c
      outcome.isError = false → ¬ (s.engine.isPreservingOnly = true ∧ Stale s s' bufs.flatten) ∧
        ¬ (outcome.isPending = false ∧ s'.Deaf c' bufs.flatten)

instance (s : ChaosStream τ) (c : Clock) (bufs : List (List Byte)) : Decidable (s.Concurs c bufs) := by
  unfold Concurs
  split
  · infer_instance
  · infer_instance

theorem updateLive_settled {s : ChaosStream τ} {s' : ChaosStream τ} {c c' : Clock}
    (h : s.updateLive c = (.ready (), s', c')) : s'.newerPolicy = none := by
  unfold updateLive at h
  split at h
  · next hn =>
    cases h
    exact hn
  · next snapshot hn =>
    simp only at h
    split at h
    · cases h
    · cases h
      -- The observed generation is the one just installed.
      unfold newerPolicy LivePolicy.newer at hn
      split at hn
      · cases hn
      · next policy hp =>
        split at hn
        · cases hn
        · cases hn
          simp [newerPolicy, LivePolicy.newer, transition, hp]

theorem pollWrite_settled {s : ChaosStream τ} (h : s.newerPolicy = none) (c : Clock) (bytes : List Byte) :
    s.pollWrite c bytes = s.settledWrite c bytes := by
  simp only [pollWrite, updateLive, h]

omit [AsyncWrite τ] in
theorem direct_spec (s : ChaosStream τ) (r : Poll (IoResult Nat) × τ) :
    (s.direct r).1 = r.1 ∧ (s.direct r).2.engine = s.engine := by
  unfold direct
  split
  · exact ⟨rfl, rfl⟩
  · exact ⟨rfl, rfl⟩

variable [RecordsWrites τ]

/-- On a settled engine with a plan, the vectored path ends like the scalar one
exactly if the bound is not out of date. -/
theorem alike_engineWrite {s : ChaosStream τ} (h : s.engine.Healthy) (hp : s.engine.isPreservingOnly) (c : Clock)
    (data : List Byte) :
    Alike (if s.engine.boundedAcceptCapacity = 0 then s.vectoredFull c
        else s.engineWrite c (data.take s.engine.boundedAcceptCapacity)) (s.engineWrite c data) ↔
      ((s.driveFlush c).1.isError = false → ¬ Stale s (s.driveFlush c).2.1 data) := by
  obtain ⟨out, hpass, -⟩ : ∃ out, DirectionEngine.Passed s.engine out (s.driveFlush c).2.1.engine ∧ _ :=
    s.engine.pollFlush_passed s.inner c
  have hoffer := alike_offer h hpass hp (s.driveFlush c).2.2 data
  unfold vectoredFull engineWrite
  generalize s.driveFlush c = driven at *
  obtain ⟨outcome, s', c'⟩ := driven
  match outcome with
  | .ready (.error error) =>
    simp only [Poll.isError_error, Bool.true_eq_false, false_implies, iff_true]
    split
    · exact ⟨rfl, rfl⟩
    · exact ⟨rfl, rfl⟩
  | .ready (.ok ()) => simpa using hoffer
  | .pending => simpa using hoffer

theorem engineWrite_pending_iff {s : ChaosStream τ} (h : s.engine.Healthy) (c : Clock) (data : List Byte) :
    ((s.engineWrite c data).1.isPending = true ∧ (s.engineWrite c data).2.1.engine.queueIsEmpty = true) ∧
        (s.driveFlush c).1.isPending = false ↔
      (s.driveFlush c).1.isError = false ∧ (s.driveFlush c).1.isPending = false ∧
        (s.driveFlush c).2.1.Deaf (s.driveFlush c).2.2 data := by
  obtain ⟨out, hpass, -⟩ : ∃ out, DirectionEngine.Passed s.engine out (s.driveFlush c).2.1.engine ∧ _ :=
    s.engine.pollFlush_passed s.inner c
  have hhealthy := hpass.healthy h
  have hdrained : (s.driveFlush c).1 = .ready (.ok ()) → (s.driveFlush c).2.1.engine.queue = [] :=
    DirectionEngine.pollFlush_ok
  unfold engineWrite
  generalize s.driveFlush c = driven at *
  obtain ⟨outcome, s', c'⟩ := driven
  match outcome with
  | .ready (.error error) => simp
  | .ready (.ok ()) => simpa using offer_pending_iff hhealthy (hdrained rfl) c' data
  | .pending => simp

omit [AsyncWrite τ] [RecordsWrites τ] in
/-- The total of the slices only cuts off what is not there. -/
theorem take_totalLength {e : DirectionEngine} (h : e.Healthy) (bufs : List (List Byte)) :
    bufs.flatten.take (min (DirectionEngine.totalLength bufs) e.boundedAcceptCapacity) =
      bufs.flatten.take e.boundedAcceptCapacity := by
  have hlim := h.limit
  have hle : e.boundedAcceptCapacity ≤ u64Max := (Nat.min_le_left _ _).trans hlim
  rw [DirectionEngine.totalLength_eq, clampU64]
  rcases Nat.lt_or_ge (min bufs.flatten.length u64Max) e.boundedAcceptCapacity with hb | hb
  · rw [Nat.min_eq_left hb.le, List.take_of_length_le (by omega), List.take_of_length_le (by omega)]
  · rw [Nat.min_eq_right hb]

omit [RecordsWrites τ] in
/-- A vectored write once the generation is settled. -/
theorem pollWriteVectored_settled {s s' : ChaosStream τ} {c c' : Clock} (hu : s.updateLive c = (.ready (), s', c'))
    (h : s'.engine.Healthy) (bufs : List (List Byte)) :
    s.pollWriteVectored c bufs =
      if s'.engine.isEmpty then
        let (outcome, s'') := s'.direct (AsyncWrite.pollWriteVectored s'.inner bufs)
        (outcome, s'', c')
      else if ¬ s'.engine.isPreservingOnly then s'.engineWrite c' bufs.flatten
      else if s'.engine.boundedAcceptCapacity = 0 then s'.vectoredFull c'
      else s'.engineWrite c' (bufs.flatten.take s'.engine.boundedAcceptCapacity) := by
  have hsettled := updateLive_settled hu
  simp only [pollWriteVectored, hu, pollWrite_settled hsettled, DirectionEngine.joinPrefix_eq, take_totalLength h,
    settledWrite]
  split
  · rfl
  · rfl

theorem concurs_iff {s : ChaosStream τ} (h : s.engine.Healthy) (c : Clock) (bufs : List (List Byte)) :
    (Alike (s.pollWriteVectored c bufs) (s.pollWrite c bufs.flatten) ∧
        ¬ s.Stuck c (AsyncWrite.pollWriteVectored · bufs) (s.pollWriteVectored c bufs) ∧
        ¬ s.Stuck c (AsyncWrite.pollWrite · bufs.flatten) (s.pollWrite c bufs.flatten)) ↔
      s.Concurs c bufs := by
  have hu := updateLive_healthy h c
  unfold Concurs Stuck wakes
  rcases hr : s.updateLive c with ⟨outcome, s', c'⟩
  rw [hr] at hu
  match outcome with
  | .pending => simp [pollWriteVectored, pollWrite, hr, Alike]
  | .ready () =>
    have hw : s.pollWrite c bufs.flatten = s'.settledWrite c' bufs.flatten := by simp only [pollWrite, hr]
    rw [hw, pollWriteVectored_settled hr hu, settledWrite]
    simp only at hu ⊢
    by_cases he : s'.engine.isEmpty
    · simp only [he, if_true]
      have hv := s'.direct_spec (AsyncWrite.pollWriteVectored s'.inner bufs)
      have hd := s'.direct_spec (AsyncWrite.pollWrite s'.inner bufs.flatten)
      simp only [Alike, hv, hd, and_true, and_iff_left_iff_imp]
      intro _
      constructor
      · rintro ⟨⟨hpending, -⟩, hwoken⟩
        rw [hpending] at hwoken
        cases hwoken
      · rintro ⟨⟨hpending, -⟩, hwoken⟩
        rw [hpending] at hwoken
        cases hwoken
    · simp only [he, Bool.false_eq_true, if_false]
      have hstuck := engineWrite_pending_iff hu c' bufs.flatten
      have halike : Alike (if ¬ s'.engine.isPreservingOnly then s'.engineWrite c' bufs.flatten
          else if s'.engine.boundedAcceptCapacity = 0 then s'.vectoredFull c'
          else s'.engineWrite c' (bufs.flatten.take s'.engine.boundedAcceptCapacity))
          (s'.engineWrite c' bufs.flatten) ↔ ((s'.driveFlush c').1.isError = false →
            ¬ (s'.engine.isPreservingOnly = true ∧ Stale s' (s'.driveFlush c').2.1 bufs.flatten)) := by
        by_cases hp : s'.engine.isPreservingOnly
        · simpa [hp] using alike_engineWrite hu hp c' bufs.flatten
        · simp [hp, Alike]
      generalize (if ¬ s'.engine.isPreservingOnly then s'.engineWrite c' bufs.flatten
        else if s'.engine.boundedAcceptCapacity = 0 then s'.vectoredFull c'
        else s'.engineWrite c' (bufs.flatten.take s'.engine.boundedAcceptCapacity)) = vectored at *
      rw [hstuck]
      constructor
      · rintro ⟨ha, -, hs⟩ herr
        exact ⟨halike.1 ha herr, fun hd => hs ⟨herr, hd⟩⟩
      · intro hall
        have ha := halike.2 fun herr => (hall herr).1
        refine ⟨ha, ?_, fun hd => (hall hd.1).2 hd.2⟩
        rw [ha.1, ha.2, hstuck]
        exact fun hd => (hall hd.1).2 hd.2

end

end ChaosStream

namespace StreamRun

/-- In every reachable state and for every list of slices, the vectored write ends
like the scalar write of the concatenation, and neither is stuck, exactly under
`Concurs`. -/
theorem vectored_concurs_iff {τ : Type} [AsyncWrite τ] [AsyncRead τ] {s : StreamRun τ} (h : s.Reachable)
    (bufs : List (List Byte)) :
    (ChaosStream.Alike (s.stream.pollWriteVectored s.clock bufs) (s.stream.pollWrite s.clock bufs.flatten) ∧
        ¬ s.stream.Stuck s.clock (AsyncWrite.pollWriteVectored · bufs) (s.stream.pollWriteVectored s.clock bufs) ∧
        ¬ s.stream.Stuck s.clock (AsyncWrite.pollWrite · bufs.flatten) (s.stream.pollWrite s.clock bufs.flatten)) ↔
      s.stream.Concurs s.clock bufs :=
  ChaosStream.concurs_iff h.healthy s.clock bufs

/-- Two bytes queued under latency, filling a buffer of two, and due from the
`k`-th reading of the clock on. -/
def fullRun (k : Nat) : StreamRun Script :=
  run step (scripted {} ⟨[slow 1000000 ⟨2, Nat.two_pos, two_le_u64Max⟩]⟩ rfl (.jump k 2000000)) [.write [1, 2]]

theorem fullRun_reachable (k : Nat) : (fullRun k).Reachable := start_reachable _ _ _ _ _ _ _

theorem vectored_concurs_not_due :
    ChaosStream.Alike ((fullRun 20).stream.pollWriteVectored (fullRun 20).clock [[3], [4]])
      ((fullRun 20).stream.pollWrite (fullRun 20).clock [3, 4]) :=
  ((vectored_concurs_iff (fullRun_reachable 20) [[3], [4]]).2 (by decide)).1

/-- Both queued bytes are due: the scalar write drives them out and takes its
byte, the vectored one drives them out and is pending. -/
theorem due_queue_stalls_vectored :
    ¬ ∀ (s : StreamRun Script), s.Reachable → ∀ bufs : List (List Byte),
        ChaosStream.Alike (s.stream.pollWriteVectored s.clock bufs) (s.stream.pollWrite s.clock bufs.flatten) := by
  intro h
  have := (h (fullRun 6) (fullRun_reachable 6) [[3]]).1
  exact absurd this (by decide)

end StreamRun

end Eggchaos
