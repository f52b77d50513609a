import Eggchaos.Terminated
/-!
# What a blackhole lets through

While a blackhole discards, nothing is queued, so a stream whose writes all find
it discarding hands nothing to the transport. A finite blackhole stops at its
deadline; the termination that is due then is recorded by the same `accept` that
finds it no longer discarding, after `poll_write` has tested for it. So the first
write past the deadline is queued like any other, unless another poll has
recorded the termination before.
-/

namespace Eggchaos
open Lib

namespace DirectionEngine

/-- An engine as compiled from the plan, by a constructor or by a transition. -/
def Fresh (e : DirectionEngine) (plan : FaultPlan) (ident : Identity) : Prop :=
  ∃ handle now previous, e = (compile plan ident handle now).absorbEvidence previous

/-- The bytes of a write made now do not get past the engine: a termination is
recorded, or the blackhole discards them. -/
def Swallows (e : DirectionEngine) (c : Clock) : Prop := e.terminationRequest.isSome ∨ e.discardsAt c

instance (e : DirectionEngine) (c : Clock) : Decidable (e.Swallows c) := inferInstanceAs (Decidable (_ ∨ _))

/-- An engine with a blackhole and nothing queued. -/
structure Void (e : DirectionEngine) : Prop where
  healthy : e.Healthy
  blackhole : e.blackhole.isSome
  planned : e.isEmpty = false
  drained : e.queue = []

theorem Fresh.void {e : DirectionEngine} {plan : FaultPlan} {ident : Identity} (h : e.Fresh plan ident)
    (hb : plan.faults.any ident.swallows) : e.Void := by
  obtain ⟨handle, now, previous, rfl⟩ := h
  refine ⟨absorbEvidence_healthy (compile_healthy _ _ _ _) _, ?_, ?_, rfl⟩
  · rw [← compile_blackhole plan ident handle now] at hb
    exact hb
  · obtain ⟨fault, hmem, -⟩ := List.any_eq_true.1 hb
    have hne : plan.faults ≠ [] := List.ne_nil_of_mem hmem
    simpa [isEmpty, FaultPlan.isEmpty, absorbEvidence, compile] using hne

theorem Void.of_setup {e e' : DirectionEngine} (h : e.Void) (hs : e'.setup = e.setup) (hhealthy : e'.Healthy)
    (hq : e'.queue = []) : e'.Void := by
  have hblackhole : e'.blackhole = e.blackhole := congrArg Setup.blackhole hs
  have hplan : e'.plan = e.plan := congrArg Setup.plan hs
  refine ⟨hhealthy, ?_, ?_, hq⟩
  · rw [hblackhole]
    exact h.blackhole
  · rw [isEmpty, hplan]
    exact h.planned

theorem Void.passed {e e' : DirectionEngine} {out : List Byte} (h : e.Void) (hp : Passed e out e') :
    e'.Void ∧ out = [] := by
  refine ⟨h.of_setup hp.setup (hp.healthy h.healthy) (hp.drained h.healthy.solid h.drained), ?_⟩
  have hb := hp.bytes
  rw [h.drained, segmentBytes_nil] at hb
  exact (List.append_eq_nil_iff.1 hb.symm).1

/-- What is discarded is not queued. -/
theorem Void.accept {e : DirectionEngine} (h : e.Void) {c : Clock} (hd : e.discardsAt c) (bytes : List Byte) :
    (e.accept c bytes).2.1.Void := by
  obtain ⟨ident, k, hl⟩ := h.healthy.lossAt
  have hr := e.refresh_passed c
  have hacc := accept_accepted hl c bytes
  rw [hd] at hacc
  refine h.of_setup (hacc.setup.trans hr.setup) (accept_healthy h.healthy h.planned c bytes) ?_
  rw [hacc.toEnqueued.queue_eq rfl]
  exact hr.drained h.healthy.solid h.drained

end DirectionEngine

namespace ChaosStream
variable {τ : Type} [AsyncWrite τ] [RecordsWrites τ]

/-- A stream that has let `log` through, with a blackhole and no newer policy. -/
structure Silent (log : List Byte) (s : ChaosStream τ) : Prop where
  void : s.engine.Void
  settled : s.newerPolicy = none
  written : RecordsWrites.log s.inner = log

theorem silentRule (log data : List Byte) :
    PollRule (fun (s : ChaosStream τ) c => s.Silent log ∧ (data ≠ [] → s.engine.Swallows c))
      (fun s _ => s.Silent log) data where
  weaken h := h.1
  update {s c} h := by
    have hsame : s.updateLive c = (.ready (), s, c) := by simp only [updateLive, h.1.settled]
    rw [hsame]
    exact h
  drive {s c} h := by
    rw [driveFlush_of_nil h.1.void.drained]
    exact ⟨⟨h.1.void, h.1.settled, (RecordsWrites.log_pollFlush s.inner).trans h.1.written⟩, h.2⟩
  accept {s c bytes} h _ hopen hb hpre := by
    have hdata : data ≠ [] := by
      rintro rfl
      exact hb (List.prefix_nil.1 hpre)
    rcases h.2 hdata with ht | hd
    · -- A recorded termination with nothing queued has ended the write before.
      simp [terminated, ht, DirectionEngine.queueIsEmpty, h.1.void.drained] at hopen
    · exact ⟨h.1.void.accept hd bytes, h.1.settled, h.1.written⟩
  direct _ h he := by
    rw [h.1.void.planned] at he
    cases he
  passed inner _ h hp hlog := by
    obtain ⟨hvoid, rfl⟩ := h.void.passed hp
    exact ⟨hvoid, h.settled, by rw [hlog, List.append_nil, h.written]⟩
  evidence _ h := ⟨h.void, h.settled, h.written⟩

end ChaosStream

namespace StreamRun
variable {τ : Type} [AsyncWrite τ] [AsyncRead τ]

def Op.isPublish : Op → Bool
  | .publish _ _ => true
  | _ => false

/-- The operation hands in bytes only while the engine swallows them. -/
def Unleaking (s : StreamRun τ) (op : Op) : Prop := op.data ≠ [] → s.stream.engine.Swallows s.clock

instance (s : StreamRun τ) (op : Op) : Decidable (Unleaking s op) := inferInstanceAs (Decidable (_ → _))

/-- A blackhole does not leak: from a fresh engine with an active blackhole, in
every run of polls in which each non-empty write finds the blackhole discarding
or the termination recorded, nothing is handed to the transport. -/
theorem blackhole_never_leaks {s : StreamRun τ} {plan : FaultPlan} {ident : DirectionEngine.Identity}
    (hf : s.stream.engine.Fresh plan ident) (hb : plan.faults.any ident.swallows)
    (hsettled : s.stream.newerPolicy = none) {ops : List Op} (hpolls : ∀ op ∈ ops, op.isPublish = false)
    (hops : Along step Unleaking s ops) :
    (run step s ops).stream.inner.written = s.stream.inner.written := by
  have hstart : s.stream.Silent s.stream.inner.written := ⟨hf.void hb, hsettled, rfl⟩
  refine (run_inv_along (fun r : StreamRun τ => r.stream.Silent s.stream.inner.written) ?_ hstart
    (hops.and_forall hpolls)).written
  intro r op hr hop
  refine step_rule (ChaosStream.silentRule _ op.data) ⟨hr, hop.2⟩ ?_
  rintro plan seed rfl
  exact absurd hop.1 (by simp [Op.isPublish])

/-- A blackhole that closes after five milliseconds, and `k` readings before ten
have passed. -/
def closing (k : Nat) : StreamRun Script :=
  scripted {} ⟨[always "hole" (.blackhole ⟨some 5000000⟩)]⟩ rfl (.jump k 10000000)

theorem closing_fresh (k : Nat) :
    (closing k).stream.engine.Fresh ⟨[always "hole" (.blackhole ⟨some 5000000⟩)]⟩ ⟨0, "proxy", 1, .upstream⟩ :=
  ⟨.new, (Clock.jump k 10000000).now, {}, rfl⟩

theorem blackhole_never_leaks_polled :
    (run step (closing 7) [.write [1, 2], .writeVectored [[3], [4]], .pollTermination, .write [5], .flush,
      .read 8]).stream.inner.written = [] :=
  blackhole_never_leaks (closing_fresh 7) (by decide) rfl (by decide) (by decide)

/-- The first write after the deadline reaches the transport. -/
theorem late_write_leaks :
    ¬ ∀ (s : StreamRun Script) (plan : FaultPlan) (ident : DirectionEngine.Identity),
        s.stream.engine.Fresh plan ident → plan.faults.any ident.swallows → s.stream.newerPolicy = none →
        ∀ ops : List Op, (∀ op ∈ ops, op.isPublish = false) →
          (run step s ops).stream.inner.written = s.stream.inner.written := by
  intro h
  have := h (closing 1) _ _ (closing_fresh 1) (by decide) rfl [.write [1]] (by simp [Op.isPublish])
  exact absurd this (by decide)

end StreamRun

end Eggchaos
