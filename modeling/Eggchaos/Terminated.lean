import Eggchaos.Transition
/-!
# Writes after a termination

Once a termination is on the handle and what was accepted before it has drained,
the stream is `Closed`, and it stays so in every run: the handle is passed on to
the engine of the next generation. What a write meets there is decided in one
place, `settledWrite_closed`: an engine with a plan refuses it, unless the
transport's own flush fails first, but an engine without a plan is never asked.

While the prefix is still queued an engine takes more bytes whenever it has room
for them. Only a used-up limit refuses for the termination's sake.
-/

namespace Eggchaos
open Lib

namespace DirectionEngine

/-- The termination is recorded and the queue has drained. -/
structure Closed (info : TerminationInfo) (e : DirectionEngine) : Prop where
  healthy : e.Healthy
  recorded : e.termination = some info
  drained : e.queue = []

theorem Passed.recorded {e e' : DirectionEngine} {out : List Byte} {info : TerminationInfo} (hp : Passed e out e')
    (h : e.termination = some info) : e'.termination = some info := by
  rcases hp.requested with heq | ⟨hn, -⟩
  · rw [heq, h]
  · rw [h] at hn
    cases hn

theorem Passed.drained {e e' : DirectionEngine} {out : List Byte} (hp : Passed e out e') (hs : Solid e.queue)
    (h : e.queue = []) : e'.queue = [] := by
  have hb := hp.bytes
  rw [h, segmentBytes_nil] at hb
  apply (hp.solid hs).eq_nil
  exact (List.append_eq_nil_iff.1 hb.symm).2

theorem Passed.suffix {e e' : DirectionEngine} {out : List Byte} (hp : Passed e out e') :
    e'.queuedBytes <:+ e.queuedBytes := by
  rw [queuedBytes_eq, queuedBytes_eq, hp.bytes]
  exact List.suffix_append _ _

/-- Where nothing is queued the queue stays. -/
theorem Enqueued.queue_eq {e e' : DirectionEngine} {data : List Byte} (h : Enqueued e data e') (hnil : data = []) :
    e'.queue = e.queue := by
  obtain ⟨segs, hq, hb, hs⟩ := h.queue
  rw [hq, hs.eq_nil (hb.trans hnil), List.append_nil]

theorem Passed.closed {e e' : DirectionEngine} {out : List Byte} {info : TerminationInfo} (hp : Passed e out e')
    (h : e.Closed info) : e'.Closed info :=
  ⟨hp.healthy h.healthy, hp.recorded h.recorded, hp.drained h.healthy.solid h.drained⟩

/-- The next generation finds the termination on the handle. -/
theorem replace_closed {old : DirectionEngine} {info : TerminationInfo} (h : old.Healthy)
    (ht : old.termination = some info) (snapshot : PublishedPolicy) (proxy : String) (key : UInt64)
    (direction : Direction) (c : Clock) : (old.replace snapshot proxy key direction c).1.Closed info :=
  ⟨replace_healthy _ _ _ _ _ _, h.synced.trans ht, rfl⟩

end DirectionEngine

namespace ChaosStream
section
variable {τ : Type} [AsyncWrite τ]

/-- The plan the next poll of a write works under. -/
def planInForce (s : ChaosStream τ) : FaultPlan :=
  match s.newerPolicy with
  | some snapshot => snapshot.plan
  | none => s.engine.plan

/-- A write on a closed stream is refused: under a plan, unless the transport's
flush fails with another error; without one, only if the transport refuses. -/
def Bars (plan : FaultPlan) (inner : τ) (bytes : List Byte) : Prop :=
  if plan.isEmpty then (AsyncWrite.pollWrite inner bytes).1.isAbort = true
  else (AsyncWrite.pollFlush inner).1.isError = true → (AsyncWrite.pollFlush inner).1.isAbort = true

instance (plan : FaultPlan) (inner : τ) (bytes : List Byte) : Decidable (Bars plan inner bytes) :=
  inferInstanceAs (Decidable (ite _ _ _))

theorem driveFlush_of_nil {s : ChaosStream τ} (h : s.engine.queue = []) (c : Clock) :
    s.driveFlush c =
      ((AsyncWrite.pollFlush s.inner).1, { s with inner := (AsyncWrite.pollFlush s.inner).2 }, c) := by
  simp only [driveFlush, DirectionEngine.pollFlush, DirectionEngine.pollQueue_of_nil h]

/-- With nothing queued the transition does not touch the transport. -/
theorem updateLive_closed {s : ChaosStream τ} {info : TerminationInfo} (h : s.engine.Closed info) (c : Clock) :
    ∃ s' c', s.updateLive c = (.ready (), s', c') ∧ s'.engine.Closed info ∧ s'.inner = s.inner ∧
      s'.engine.plan = s.planInForce := by
  unfold updateLive planInForce
  split
  · next hn => exact ⟨s, c, rfl, h, rfl, by simp only [hn]⟩
  · next snapshot hn =>
    have hfree : s.engine.barrier s.inner c = (false, s.engine, s.inner, c) := by
      simp [DirectionEngine.barrier, DirectionEngine.queueIsEmpty, h.drained]
    simp only [hfree, Bool.false_eq_true, if_false]
    exact ⟨_, _, rfl, DirectionEngine.replace_closed h.healthy h.recorded _ _ _ _ _, rfl, by simp only [hn]; rfl⟩

variable [RecordsWrites τ]

/-- What a write meets on a closed engine. -/
theorem settledWrite_closed {s : ChaosStream τ} {info : TerminationInfo} (h : s.engine.Closed info) (c : Clock)
    {bytes : List Byte} (hb : bytes ≠ []) :
    ((s.settledWrite c bytes).1.isAbort = true ↔ Bars s.engine.plan s.inner bytes) ∧
      (s.settledWrite c bytes).2.1.engine = s.engine ∧
      ((s.settledWrite c bytes).1.isAbort = true →
        RecordsWrites.log (s.settledWrite c bytes).2.1.inner = RecordsWrites.log s.inner) := by
  unfold settledWrite Bars DirectionEngine.isEmpty
  split
  · next he =>
    -- The direct path: only the transport decides.
    have hlog := RecordsWrites.log_pollWrite s.inner bytes
    generalize AsyncWrite.pollWrite s.inner bytes = answer at *
    obtain ⟨outcome, inner⟩ := answer
    cases outcome with
    | ready answer =>
      cases answer with
      | ok n => simp [direct]
      | error error =>
        simp only at hlog
        simp [direct, hlog, taken]
    | pending => simp [direct]
  · next he =>
    have hclosed : ∀ inner : τ, { s with inner }.terminated = true := by
      intro inner
      simp [terminated, DirectionEngine.terminationRequest, DirectionEngine.queueIsEmpty, h.recorded, h.drained]
    have hlog := RecordsWrites.log_pollFlush s.inner
    unfold engineWrite
    rw [driveFlush_of_nil h.drained]
    generalize AsyncWrite.pollFlush s.inner = answer at *
    obtain ⟨outcome, inner⟩ := answer
    simp only at hlog
    cases outcome with
    | ready answer =>
      cases answer with
      | ok _ => simp [offer, hb, hclosed, terminatedError, hlog]
      | error error => simp [mirror, hlog]
    | pending => simp [offer, hb, hclosed, terminatedError, hlog]

/-- The write fails with `ConnectionAborted` and nothing of it is taken. -/
def Aborts (s : ChaosStream τ) (c : Clock) (bytes : List Byte) : Prop :=
  (s.pollWrite c bytes).1.isAbort = true ∧
    owned (s.pollWrite c bytes).2.1.inner (s.pollWrite c bytes).2.1.engine = owned s.inner s.engine

instance (s : ChaosStream τ) (c : Clock) (bytes : List Byte) : Decidable (s.Aborts c bytes) :=
  inferInstanceAs (Decidable (_ ∧ _))

theorem aborts_iff {s : ChaosStream τ} {info : TerminationInfo} (h : s.engine.Closed info) (c : Clock)
    {bytes : List Byte} (hb : bytes ≠ []) : s.Aborts c bytes ↔ Bars s.planInForce s.inner bytes := by
  obtain ⟨s', c', hu, hclosed, hinner, hplan⟩ := updateLive_closed h c
  obtain ⟨hiff, hengine, hlog⟩ := settledWrite_closed hclosed c' hb
  simp only [Aborts, pollWrite, hu]
  rw [hplan, hinner] at hiff
  rw [← hiff]
  constructor
  · exact fun ha => ha.1
  · intro ha
    refine ⟨ha, ?_⟩
    simp only [owned, hengine, hlog ha, hinner, DirectionEngine.queuedBytes, hclosed.drained, h.drained]

omit [AsyncWrite τ] [RecordsWrites τ] in
theorem pollTermination_iff {s : ChaosStream τ} {info : TerminationInfo} (h : s.engine.Closed info) (c : Clock) :
    (s.pollTermination c).1 = .ready (some info) ↔ s.engine.isEmpty = false := by
  unfold pollTermination
  cases s.engine.isEmpty with
  | true => simp
  | false =>
    have hdue : s.engine.pollDueTermination c = (.ready info, s.engine, c) := by
      simp only [DirectionEngine.pollDueTermination,
        DirectionEngine.refresh_of_recorded (e := s.engine) (by simp [h.recorded]), h.recorded]
    simp [hdue]

/-! ## While the prefix is queued -/

/-- What a refused write returns: it is pending while bytes are queued and aborted
once they have drained, and none of its bytes is queued. -/
def Refuses (queued : List Byte) (r : Poll (IoResult Nat) × ChaosStream τ × Clock) : Prop :=
  (r.1.isPending = true ∧ r.2.1.engine.queueIsEmpty = false ∨
    r.1.isAbort = true ∧ r.2.1.engine.queueIsEmpty = true) ∧ r.2.1.engine.queuedBytes <:+ queued

instance (queued : List Byte) (r : Poll (IoResult Nat) × ChaosStream τ × Clock) : Decidable (Refuses queued r) :=
  inferInstanceAs (Decidable (_ ∧ _))

/-- When a write with the termination recorded is refused. Under a settled plan
the drive decides: it empties the queue, or the engine takes nothing of any
input. A transition is held up with bytes queued, or leaves a closed stream. -/
def Withstands (s : ChaosStream τ) (c : Clock) (bytes : List Byte) : Prop :=
  match s.newerPolicy with
  | some snapshot =>
    let (held, engine, inner, _) := s.engine.barrier s.inner c
    if held then engine.queueIsEmpty = false else Bars snapshot.plan inner bytes
  | none =>
    if s.engine.isEmpty then Bars s.engine.plan s.inner bytes
    else
      let (outcome, engine, _, c) := s.engine.pollFlush s.inner c
      if outcome.isError then outcome.isAbort = true ∧ engine.queueIsEmpty = true
      else engine.queueIsEmpty = true ∨ engine.RefusesInput c

instance (s : ChaosStream τ) (c : Clock) (bytes : List Byte) : Decidable (s.Withstands c bytes) := by
  unfold Withstands
  split
  · infer_instance
  · infer_instance

theorem refuses_closed {s : ChaosStream τ} {info : TerminationInfo} (h : s.engine.Closed info) (c : Clock)
    {bytes : List Byte} (hb : bytes ≠ []) (queued : List Byte) :
    Refuses queued (s.settledWrite c bytes) ↔ Bars s.engine.plan s.inner bytes := by
  obtain ⟨hiff, hengine, -⟩ := settledWrite_closed h c hb
  have hnil : s.engine.queueIsEmpty = true := by simp [DirectionEngine.queueIsEmpty, h.drained]
  have hqueued : s.engine.queuedBytes = [] := by simp [DirectionEngine.queuedBytes, h.drained]
  simp [Refuses, hengine, hnil, hqueued, hiff]

omit [RecordsWrites τ] in
/-- An engine with bytes queued refuses exactly if it has no room for any. -/
theorem refuses_accept {s : ChaosStream τ} {info : TerminationInfo} (h : s.engine.Healthy)
    (ht : s.engine.termination = some info) (hq : s.engine.queueIsEmpty = false) (c : Clock) {bytes : List Byte}
    (hb : bytes ≠ []) {queued : List Byte} (hsuf : s.engine.queuedBytes <:+ queued) :
    Refuses queued (s.acceptWrite c bytes) ↔ s.engine.RefusesInput c := by
  obtain ⟨ident, k, hl⟩ := h.lossAt
  have hzero := DirectionEngine.accept_eq_zero_iff hl c hb
  have hacc := DirectionEngine.accept_accepted hl c bytes
  rw [DirectionEngine.refresh_of_recorded (by simp [ht])] at hacc
  rw [← hzero]
  unfold acceptWrite
  generalize s.engine.accept c bytes = taken at *
  obtain ⟨n, e, c'⟩ := taken
  simp only at hacc ⊢
  split
  · next hpos => simp [Refuses, hpos.ne']
  · next hpos =>
    obtain rfl : n = 0 := by omega
    have hsame : e.queue = s.engine.queue := hacc.toEnqueued.queue_eq (by simp [DirectionEngine.survivors])
    have hopen : e.queueIsEmpty = false := by rw [DirectionEngine.queueIsEmpty, hsame]; exact hq
    have hbytes : e.queuedBytes = s.engine.queuedBytes := by simp only [DirectionEngine.queuedBytes, hsame]
    simp [terminated, hopen, Refuses, hbytes, hsuf]

omit [RecordsWrites τ] in
/-- Behind a drive that did not fail. -/
theorem refuses_offer {s : ChaosStream τ} {info : TerminationInfo} (h : s.engine.Healthy)
    (ht : s.engine.termination = some info) (c : Clock) {bytes : List Byte} (hb : bytes ≠ []) {queued : List Byte}
    (hsuf : s.engine.queuedBytes <:+ queued) :
    Refuses queued (s.offer c bytes) ↔ s.engine.queueIsEmpty = true ∨ s.engine.RefusesInput c := by
  rw [offer, if_neg (by simpa using hb)]
  cases hq : s.engine.queueIsEmpty with
  | true => simp [terminated, DirectionEngine.terminationRequest, ht, hq, Refuses, terminatedError, hsuf]
  | false =>
    simp only [terminated, hq, Bool.and_false, Bool.false_eq_true, if_false, false_or]
    exact refuses_accept h ht hq c hb hsuf

theorem refused_iff {s : ChaosStream τ} {info : TerminationInfo} (h : s.engine.Healthy)
    (ht : s.engine.termination = some info) (c : Clock) {bytes : List Byte} (hb : bytes ≠ []) :
    Refuses s.engine.queuedBytes (s.pollWrite c bytes) ↔ s.Withstands c bytes := by
  unfold Withstands pollWrite updateLive
  cases hn : s.newerPolicy with
  | some snapshot =>
    simp only
    obtain ⟨out, hp, -⟩ := s.engine.barrier_passed s.inner c
    have hsuf := hp.suffix
    have hrec := hp.recorded ht
    have hhealthy := hp.healthy h
    generalize s.engine.barrier s.inner c = passed at *
    obtain ⟨held, e, inner, c'⟩ := passed
    simp only at hsuf hrec hhealthy ⊢
    cases held with
    | true => simp [Refuses, hsuf]
    | false =>
      have hclosed := DirectionEngine.replace_closed hhealthy hrec snapshot s.proxy s.connectionKey s.direction c'
      simp only [Bool.false_eq_true, if_false]
      exact refuses_closed hclosed _ hb _
  | none =>
    simp only
    unfold settledWrite
    split
    · next he =>
      have hclosed : s.engine.Closed info := ⟨h, ht, h.direct he⟩
      have := refuses_closed hclosed c hb s.engine.queuedBytes
      rwa [settledWrite, if_pos he] at this
    · next he =>
      obtain ⟨out, hp, -⟩ := s.engine.pollFlush_passed s.inner c
      have hsuf := hp.suffix
      have hrec := hp.recorded ht
      have hhealthy := hp.healthy h
      unfold engineWrite driveFlush
      generalize s.engine.pollFlush s.inner c = driven at *
      obtain ⟨outcome, e, inner, c'⟩ := driven
      simp only at hsuf hrec hhealthy ⊢
      match outcome with
      | .ready (.error error) => simp [Refuses, mirror, hsuf]
      | .ready (.ok ()) => exact refuses_offer hhealthy hrec c' hb hsuf
      | .pending => exact refuses_offer hhealthy hrec c' hb hsuf

/-- A closed stream stays closed. -/
theorem closedRule (info : TerminationInfo) (data : List Byte) :
    PollRule (fun (s : ChaosStream τ) _ => s.engine.Closed info) (fun s _ => s.engine.Closed info) data where
  weaken h := h
  update {s c} h := by
    obtain ⟨s', c', hu, hclosed, -⟩ := updateLive_closed h c
    rw [hu]
    exact hclosed
  drive {s c} h := by
    rw [driveFlush_of_nil h.drained]
    exact h
  accept h _ hopen _ _ := by
    simp [terminated, DirectionEngine.terminationRequest, DirectionEngine.queueIsEmpty, h.recorded, h.drained] at hopen
  direct _ h _ := h
  passed _ _ h hp _ := hp.closed h
  evidence _ h := h

end

end ChaosStream

namespace StreamRun
variable {τ : Type} [AsyncWrite τ] [AsyncRead τ]

theorem run_closed {s : StreamRun τ} {info : TerminationInfo} (h : s.stream.engine.Closed info) (ops : List Op) :
    (run step s ops).stream.engine.Closed info :=
  run_inv (fun s : StreamRun τ => s.stream.engine.Closed info)
    (fun _ op hs => step_rule (ChaosStream.closedRule info op.data) hs fun _ _ _ => hs) h ops

/-- A termination that is on the handle of a drained stream is permanent, in
every state of every run from there, exactly under the conditions stated: a
write is refused if the plan in force is not empty and the flush does not fail
otherwise, and the termination is reported if the engine's plan is not empty. -/
theorem termination_permanent_iff {s : StreamRun τ} (h : s.Reachable) {info : TerminationInfo}
    (ht : s.stream.engine.termHandle.get = some info) (hq : s.stream.engine.queue = []) (ops : List Op) :
    let r := run step s ops
    (∀ bytes, bytes ≠ [] →
      (r.stream.Aborts r.clock bytes ↔ ChaosStream.Bars r.stream.planInForce r.stream.inner bytes)) ∧
    ((r.stream.pollTermination r.clock).1 = .ready (some info) ↔ r.stream.engine.isEmpty = false) := by
  have hclosed : s.stream.engine.Closed info := ⟨h.healthy, h.healthy.synced.symm.trans ht, hq⟩
  have hrun := run_closed hclosed ops
  exact ⟨fun bytes hb => ChaosStream.aborts_iff hrun _ hb, ChaosStream.pollTermination_iff hrun _⟩

/-- A stream that disconnects at once, after its termination was polled. -/
def cutRun : StreamRun Script :=
  run step (scripted {} ⟨[cut 0 false]⟩ rfl (.still 0)) [.pollTermination]

theorem cutRun_reachable : cutRun.Reachable := start_reachable _ _ _ _ _ _ _

theorem termination_permanent_latency :
    let r := run step cutRun [.publish slowPlan 0, .write [1], .flush]
    r.stream.Aborts r.clock [2] ∧ (r.stream.pollTermination r.clock).1.isPending = false := by
  have ht : cutRun.stream.engine.termHandle.get = some ⟨.graceful, .upstream, some "cut"⟩ := by decide
  have h := termination_permanent_iff cutRun_reachable ht (by decide) [.publish slowPlan 0, .write [1], .flush]
  refine ⟨(h.1 [2] (by decide)).2 (by decide), ?_⟩
  rw [h.2.2 (by decide)]
  rfl

/-- The empty plan is published: the next write goes through, and the termination
is not reported any more. -/
theorem empty_plan_reopens :
    ¬ ∀ (s : StreamRun Script) (info : TerminationInfo), s.Reachable →
        s.stream.engine.termHandle.get = some info → s.stream.engine.queue = [] → ∀ ops bytes, bytes ≠ [] →
        (run step s ops).stream.Aborts (run step s ops).clock bytes ∧
          ((run step s ops).stream.pollTermination (run step s ops).clock).1 = .ready (some info) := by
  intro h
  have := (h cutRun ⟨.graceful, .upstream, some "cut"⟩ cutRun_reachable (by decide) (by decide)
    [.publish .empty 0] [1] (by decide)).1
  exact absurd this (by decide)

/-- In every reachable state with the termination recorded, a non-empty write is
refused exactly under `Withstands`. -/
theorem terminated_write_refused_iff {s : StreamRun τ} (h : s.Reachable)
    (ht : s.stream.engine.terminationRequest.isSome) {bytes : List Byte} (hb : bytes ≠ []) :
    ChaosStream.Refuses s.stream.engine.queuedBytes (s.stream.pollWrite s.clock bytes) ↔
      s.stream.Withstands s.clock bytes := by
  obtain ⟨info, hinfo⟩ : ∃ info, s.stream.engine.termination = some info := by
    rw [DirectionEngine.terminationRequest, Option.isSome_map] at ht
    exact Option.isSome_iff_exists.1 ht
  exact ChaosStream.refused_iff h.healthy hinfo s.clock hb

/-- A byte is queued under five milliseconds of latency and a buffer of `cap`
bytes, and a disconnect is due before its release. -/
def delayedRun (cap : NonZeroU64) (valid : FaultPlan.validate ⟨[slow 5000000 cap, cut 1000000 false]⟩ = .ok ()) :
    StreamRun Script :=
  run step (scripted {} _ valid (.jump 6 2000000)) [.write [1], .pollTermination]

theorem delayedRun_reachable (cap : NonZeroU64) (valid) : (delayedRun cap valid).Reachable :=
  start_reachable _ _ _ _ _ _ _

theorem terminated_write_refused_full :
    let s := delayedRun ⟨1, by decide, by decide⟩ rfl
    ChaosStream.Refuses s.stream.engine.queuedBytes (s.stream.pollWrite s.clock [2]) :=
  (terminated_write_refused_iff (delayedRun_reachable _ _) (by decide) (by decide)).2 (by decide)

/-- There is room behind the delayed byte, so the engine takes another one though
the disconnect is due. -/
theorem delayed_prefix_admits :
    ¬ ∀ (s : StreamRun Script), s.Reachable → s.stream.engine.terminationRequest.isSome → ∀ bytes, bytes ≠ [] →
        ChaosStream.Refuses s.stream.engine.queuedBytes (s.stream.pollWrite s.clock bytes) := by
  intro h
  have := h (delayedRun ⟨65536, by decide, by decide⟩ rfl) (delayedRun_reachable _ _) (by decide) [2]
    (by decide)
  exact absurd this (by decide)

end StreamRun

end Eggchaos
