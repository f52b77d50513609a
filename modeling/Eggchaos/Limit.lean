import Eggchaos.Conservation
/-!
# The byte limit

Of the active `LimitData` faults the smallest limit governs, the first of equals
in plan order. Over a run the limit and what the accepting calls returned add up
to it, and the call that uses it up requests termination, unless another request
was there first; whatever is requested first stays.
-/

namespace Eggchaos
open Lib DirectionEngine

namespace EngineRun
variable {τ : Type} [AsyncWrite τ]

/-- The request of the limit fault `id`. -/
def limitInfo (ident : Identity) (id : FaultId) : TerminationInfo := ⟨.graceful, ident.direction, some id.value⟩

/-- What holds of a run under the limit `limit` of fault `id`. -/
structure Limited (ident : Identity) (limit : Nat) (id : FaultId) (s : EngineRun τ) : Prop where
  direction : s.engine.direction = ident.direction
  le : s.returned ≤ limit
  remaining : s.engine.remainingLimit = some (limit - s.returned, id)
  exhausted : s.returned = limit → s.engine.termination.isSome
  synced : s.engine.Synced

/-- A recorded request stays. -/
theorem termination_stays {ident : Identity} {plan : FaultPlan} {s : EngineRun τ} (hc : Conserved ident plan s)
    {info : TerminationInfo} (h : s.engine.termination = some info) (op : Op) :
    (step s op).engine.termination = some info := by
  have hpass : ∀ {out e'}, Passed s.engine out e' → e'.termination = some info := by
    intro out e' hp
    rcases hp.requested with heq | ⟨hn, -⟩
    · rw [heq, h]
    · rw [h] at hn; cases hn
  obtain ⟨k, hl⟩ := hc.lossAt
  rcases step_cases s hl op with ⟨out, hp, -⟩ | ⟨e₁, data, n, hp, -, hacc, -⟩
  · exact hpass hp
  · rcases eq_or_ne data [] with hnil | hne
    · rw [hacc.idle hnil, hpass hp]
    · rw [hacc.requested hne, hpass hp]; rfl

theorem Limited.step {ident : Identity} {plan : FaultPlan} {limit : Nat} {id : FaultId} {s : EngineRun τ}
    (hc : Conserved ident plan s) (h : Limited ident limit id s) (op : Op) :
    Limited ident limit id (EngineRun.step s op) := by
  obtain ⟨k, hl⟩ := hc.lossAt
  -- Once the limit is used up, what is recorded stays.
  have hstays : s.returned = limit → (EngineRun.step s op).engine.termination.isSome := by
    intro heq
    obtain ⟨info, hi⟩ := Option.isSome_iff_exists.1 (h.exhausted heq)
    simp [termination_stays hc hi op]
  rcases step_cases s hl op with ⟨out, hp, -, -, hr⟩ | ⟨e₁, data, n, hp, -, hacc, -, hr, -⟩
  · obtain ⟨_, _, _, _, _, _, _, hf⟩ := hp.frame
    refine ⟨?_, by rw [hr]; exact h.le, ?_, by rw [hr]; exact hstays, hp.synced h.synced⟩
    · rw [hf]; exact h.direction
    · rw [hf, hr]; exact h.remaining
  · obtain ⟨_, _, _, _, _, _, _, hf⟩ := hp.frame
    have hle := h.le
    have hrem : e₁.remainingLimit = some (limit - s.returned, id) := by rw [hf]; exact h.remaining
    have hn : n ≤ limit - s.returned := by
      rw [← limitAvailable_of_some hrem]
      exact hacc.limited
    have hrem' : (EngineRun.step s op).engine.remainingLimit = some (limit - s.returned - n, id) := by
      rw [hacc.limit, hrem]
      rfl
    refine ⟨?_, by omega, by rw [hrem', hr, Nat.sub_sub], ?_, hacc.synced (hp.synced h.synced)⟩
    · exact (congrArg Setup.direction hacc.setup).trans ((congrArg Setup.direction hp.setup).trans h.direction)
    · intro heq
      by_cases hz : s.returned = limit
      · exact hstays hz
      · have hne : data ≠ [] := by
          rintro rfl
          have := hacc.le
          simp only [List.length_nil] at this
          omega
        rw [show limit - s.returned - n = 0 by omega] at hrem'
        rw [hacc.requested hne, exhaustedInfo_of_zero hrem']
        cases e₁.termination <;> rfl

theorem Reached.limited {plan : FaultPlan} {ident : Identity} {s : EngineRun τ} {limit : Nat} {id : FaultId}
    (h : Reached plan ident s) (hlim : (ident.limits plan).argmin (·.1) = some (limit, id)) :
    Limited ident limit id s := by
  refine h.inv _ (fun s op hc hs => hs.step hc op) fun handle c₀ io _ => ?_
  refine ⟨rfl, Nat.zero_le _, ?_, fun hz => ?_, rfl⟩
  · rw [compile_remainingLimit, hlim, Nat.sub_zero]
  · have := (limit_bounds (List.argmin_mem hlim)).1
    simp only at hz this
    omega

/-- The call that uses the limit up records its request if none was there. -/
theorem exhausting_step {plan : FaultPlan} {ident : Identity} {s : EngineRun τ} {limit : Nat} {id : FaultId}
    (hc : Conserved ident plan s) (h : Limited ident limit id s) {op : Op} (hlt : s.returned < limit)
    (heq : (step s op).returned = limit)
    (hnone : (s.engine.refreshSyncTerminations s.clock).1.termination = none) :
    (step s op).engine.termination = some (limitInfo ident id) := by
  have hnext := h.step hc op
  obtain ⟨k, hl⟩ := hc.lossAt
  rcases step_cases s hl op with ⟨out, hp, -, -, hr⟩ | ⟨e₁, data, n, hp, rfl, hacc, -, hr, -⟩
  · omega
  · have hne : data ≠ [] := by
      rintro rfl
      have := hacc.le
      simp only [List.length_nil] at this
      omega
    have hrem := hnext.remaining
    rw [heq, Nat.sub_self] at hrem
    rw [hacc.requested hne, hnone, exhaustedInfo_of_zero hrem, gracefulInfo, limitInfo, hnext.direction]
    rfl

/-- With `limit` the smallest active byte limit and `id` the first fault that
sets it: the calls return at most `limit` in all, the engine knows what is left,
a used-up limit comes with a recorded termination, and the call that uses it up
publishes the request of `id`, once and for good, if there was no other. -/
theorem limit_exact {plan : FaultPlan} {ident : Identity} {s : EngineRun τ} {limit : Nat} {id : FaultId}
    (h : Reached plan ident s) (hlim : (ident.limits plan).argmin (·.1) = some (limit, id)) :
    s.returned ≤ limit ∧ s.engine.remainingLimit = some (limit - s.returned, id) ∧
      (s.returned = limit → s.engine.termination.isSome) ∧
      ∀ op, s.returned < limit → (step s op).returned = limit →
        (s.engine.refreshSyncTerminations s.clock).1.termination = none →
        s.engine.termHandle.get = none ∧
          ∀ ops, (run step (step s op) ops).engine.termHandle.get = some (limitInfo ident id) := by
  have hl := h.limited hlim
  have hc := h.conserved
  refine ⟨hl.le, hl.remaining, hl.exhausted, fun op hlt heq hnone => ⟨?_, fun ops => ?_⟩⟩
  · have hs := hl.synced
    rw [TerminationHandle.get, hs]
    rcases (s.engine.refresh_passed s.clock).requested with hsame | ⟨hn, -⟩
    · rw [← hsame, hnone]
    · exact hn
  · have hall := run_inv
      (fun s => Conserved ident plan s ∧ Limited ident limit id s ∧ s.engine.termination = some (limitInfo ident id))
      (fun s op ⟨hc, hl, ht⟩ => ⟨hc.step op, hl.step hc op, termination_stays hc ht op⟩)
      ⟨hc.step op, hl.step hc op, exhausting_step hc hl hlt heq hnone⟩ ops
    rw [TerminationHandle.get, hall.2.1.synced, hall.2.2]

theorem limit_exact_sample :
    (sampleRun [.accept [1, 2]]).returned ≤ 3 ∧
      ∀ ops, (run step (sampleRun [.accept [1, 2], .accept [3, 4]]) ops).engine.termHandle.get =
        some (limitInfo sampleIdent sampleLimitId) :=
  have hlim : (sampleIdent.limits samplePlan).argmin (·.1) = some (3, sampleLimitId) := by decide +kernel
  have h := limit_exact (sampleRun_reached [.accept [1, 2]]) hlim
  ⟨h.1, (h.2.2.2 (.accept [3, 4]) (by decide +kernel) (by decide +kernel) (by decide +kernel)).2⟩

end EngineRun

end Eggchaos
