import Eggchaos.Stream
import Eggchaos.Compile
/-!
# The engines a stream holds

`Healthy` is what holds of every engine a stream ever holds: compilation sets it
up, and every call the stream makes keeps it, the swap to the next generation
included. Under a plan that only preserves bytes such an engine takes exactly
the prefix it has room for.
-/

namespace Eggchaos
open Lib

namespace DirectionEngine

structure Healthy (e : DirectionEngine) : Prop where
  solid : Solid e.queue
  buffered : e.buffered = (segmentBytes e.queue).length
  fits : e.buffered ≤ e.maxBuffer
  room : 0 < e.maxBuffer
  bound : e.maxBuffer ≤ u64Max
  synced : e.Synced
  exhausted : e.exhaustedInfo.isSome → e.termination.isSome
  direct : e.isEmpty → e.queue = []
  limit : e.limitAvailable ≤ u64Max
  preserving : e.isPreservingOnly → e.blackhole = none
  lossAt : ∃ ident k, LossAt ident k e

/-- What `accept` under a preserving plan rests on; unlike `Synced` it outlives a
publication by another holder of the termination handle. -/
structure Capped (e : DirectionEngine) : Prop where
  exhausted : e.exhaustedInfo.isSome → e.termination.isSome
  limit : e.limitAvailable ≤ u64Max
  preserving : e.isPreservingOnly → e.blackhole = none
  lossAt : ∃ ident k, LossAt ident k e

theorem Healthy.capped {e : DirectionEngine} (h : e.Healthy) : e.Capped :=
  ⟨h.exhausted, h.limit, h.preserving, h.lossAt⟩

theorem exhaustedInfo_congr {e e' : DirectionEngine} (h : e'.remainingLimit = e.remainingLimit) :
    e'.exhaustedInfo.isSome = e.exhaustedInfo.isSome := by
  unfold exhaustedInfo
  rw [h]
  split <;> simp

/-- A limit that is used up is at zero. -/
theorem exhaustedInfo_isSome {e : DirectionEngine} : e.exhaustedInfo.isSome ↔ e.limitAvailable = 0 := by
  constructor
  · intro h
    by_contra hne
    simp [exhaustedInfo_eq_none hne] at h
  · intro h
    unfold limitAvailable at h
    split at h
    · next r id hr =>
      subst h
      simp [exhaustedInfo_of_zero hr]
    · simp [u64Max] at h

theorem Capped.preserving_of {e e' : DirectionEngine} (h : e.Capped) (hs : e'.setup = e.setup) :
    e'.isPreservingOnly → e'.blackhole = none := by
  have hblackhole : e'.blackhole = e.blackhole := congrArg Setup.blackhole hs
  have hplan : e'.plan = e.plan := congrArg Setup.plan hs
  rw [isPreservingOnly, hplan, hblackhole]
  exact h.preserving

/-! ## It is kept -/

theorem Passed.capped {e e' : DirectionEngine} {out : List Byte} (hp : Passed e out e') (h : e.Capped) : e'.Capped := by
  obtain ⟨ident, k, hl⟩ := h.lossAt
  refine ⟨?_, hp.limitAvailable ▸ h.limit, h.preserving_of hp.setup, ident, k, hp.lossAt hl⟩
  intro hex
  rw [exhaustedInfo_congr hp.limit] at hex
  have hsome := h.exhausted hex
  rcases hp.requested with heq | ⟨hn, info, -, ht⟩
  · rw [heq]; exact hsome
  · rw [ht]; rfl

theorem Accepted.capped {ident : Identity} {e e' : DirectionEngine} {discards : Bool} {input : List Byte} {n : Nat}
    (hp : Accepted ident e discards input n e') (h : e.Capped) : e'.Capped := by
  refine ⟨?_, ?_, h.preserving_of hp.setup, ident, hp.lossAt⟩
  · intro hex
    rcases eq_or_ne input [] with hnil | hne
    · rw [hp.idle hnil] at hex ⊢
      exact h.exhausted hex
    · rw [hp.requested hne]
      cases e.termination with
      | none => exact hex
      | some info => rfl
  · have hlimit := h.limit
    unfold limitAvailable at hlimit ⊢
    rw [hp.limit]
    cases hr : e.remainingLimit with
    | none => simp
    | some p =>
      simp only [hr, Option.map_some] at hlimit ⊢
      omega

theorem Passed.healthy {e e' : DirectionEngine} {out : List Byte} (hp : Passed e out e') (h : e.Healthy) :
    e'.Healthy := by
  have hlen := congrArg List.length hp.bytes
  rw [List.length_append] at hlen
  have hbuf := h.buffered
  have hbuf' := hp.buffered
  have hfits := h.fits
  have hmax := hp.maxBuffer
  have hcapped := hp.capped h.capped
  refine ⟨hp.solid h.solid, by omega, by omega, hmax ▸ h.room, hmax ▸ h.bound, hp.synced h.synced, hcapped.exhausted,
    ?_, hcapped.limit, hcapped.preserving, hcapped.lossAt⟩
  intro hempty
  rw [isEmpty, hp.plan] at hempty
  apply (hp.solid h.solid).eq_nil
  have hb := hp.bytes
  rw [h.direct hempty, segmentBytes_nil] at hb
  exact (List.append_eq_nil_iff.1 hb.symm).2

theorem Accepted.healthy {ident : Identity} {e e' : DirectionEngine} {discards : Bool} {input : List Byte} {n : Nat}
    (hp : Accepted ident e discards input n e') (h : e.Healthy) (hplan : e.isEmpty = false) : e'.Healthy := by
  have hmax := hp.maxBuffer
  have hbuf := hp.buffered
  have hfits := h.fits
  have hcapped := hp.capped h.capped
  refine ⟨hp.solid h.solid, ?_, ?_, hmax ▸ h.room, hmax ▸ h.bound, hp.synced h.synced, hcapped.exhausted, ?_,
    hcapped.limit, hcapped.preserving, hcapped.lossAt⟩
  · rw [hbuf, h.buffered, hp.bytes, List.length_append]
  · rcases eq_or_ne (survivors ident e discards (input.take n)) [] with hnil | hne
    · rw [hnil, List.length_nil] at hbuf
      omega
    · have := hp.fits hne
      omega
  · intro hempty
    have : e'.plan = e.plan := congrArg Setup.plan hp.setup
    rw [isEmpty, this, ← isEmpty, hplan] at hempty
    cases hempty

/-! ## It is set up -/

theorem compile_healthy (plan : FaultPlan) (ident : Identity) (handle : TerminationHandle) (now : Nat) :
    (compile plan ident handle now).Healthy := by
  refine ⟨Solid.nil, rfl, Nat.zero_le _, ?_, (compile_maxBuffer plan ident handle now).trans (by decide), rfl, ?_,
    fun _ => rfl, ?_, ?_, ident, 0,
    compile_lossAt plan ident handle now⟩
  · simp only [compile]
    omega
  · intro hex
    unfold exhaustedInfo at hex
    split at hex
    · next id hr =>
      rw [compile_remainingLimit] at hr
      exact absurd (limit_bounds (List.argmin_mem hr)).1 (Nat.lt_irrefl 0)
    · cases hex
  · unfold limitAvailable
    split
    · next hr =>
      rw [compile_remainingLimit] at hr
      exact (limit_bounds (List.argmin_mem hr)).2
    · exact le_rfl
  · intro hpres
    refine compile_unswallowed (fun fault hmem => ?_) handle now
    have hkind := List.all_eq_true.1 hpres fault hmem
    unfold Identity.swallows
    split at hkind
    all_goals simp_all

theorem empty_healthy (c : Clock) : (empty c).1.Healthy := by
  refine ⟨Solid.nil, rfl, Nat.zero_le _, by simp [empty], by simp [empty, u64Max], rfl, ?_, fun _ => rfl,
    le_rfl, fun _ => rfl,
    ⟨0, "", 0, .upstream⟩, 0, .nil, ?_, ?_⟩
  · simp [empty, exhaustedInfo]
  · simp [empty]
  · simp [empty]

theorem absorbEvidence_healthy {e : DirectionEngine} (h : e.Healthy) (previous : EngineEvidence) :
    (e.absorbEvidence previous).Healthy := by
  obtain ⟨ident, k, hl⟩ := h.lossAt
  exact ⟨h.solid, h.buffered, h.fits, h.room, h.bound, h.synced, h.exhausted, h.direct, h.limit, h.preserving,
    ident, k, hl.states, hl.decided, hl.offset⟩

theorem replace_healthy (old : DirectionEngine) (snapshot : PublishedPolicy) (proxy : String) (key : UInt64)
    (direction : Direction) (c : Clock) : (old.replace snapshot proxy key direction c).1.Healthy :=
  absorbEvidence_healthy (compile_healthy _ _ _ _) _

/-! ## Accepting under a plan that only preserves -/

/-- How much a preserving engine takes. -/
def room (e : DirectionEngine) (data : List Byte) : Nat :=
  min (min data.length e.limitAvailable) (e.maxBuffer - e.buffered)

theorem preserving_not_lossy {ident : Identity} {k : Nat} {e : DirectionEngine} (hl : LossAt ident k e)
    (h : e.isPreservingOnly) : e.lossy = false := by
  rw [lossy_iff hl, List.any_eq_false]
  intro fault hmem
  have hkind := List.all_eq_true.1 h fault hmem
  unfold Identity.loses
  split at hkind
  all_goals simp_all

/-- `accept` under a preserving plan, as the source computes it there. -/
theorem accept_preserving {e : DirectionEngine} (h : e.Capped) (hp : e.isPreservingOnly) (c : Clock)
    {data : List Byte} (hne : data ≠ []) :
    e.accept c data =
      let (e', c') := e.refreshSyncTerminations c
      if e.room data = 0 then (0, e', c'.tick)
      else
        let (n, e'') := e'.acceptPreserving (data.take (e.room data)) c'.now
        (n, e'', c'.tick) := by
  obtain ⟨ident, k, hl⟩ := h.lossAt
  have hloss := preserving_not_lossy hl hp
  have hblack := h.preserving hp
  have hex := exhaustedInfo_isSome (e := e)
  obtain ⟨t, handle, ev, hf, -⟩ := (e.refresh_published c).frame
  have hkeep : e.termination.isSome → (e.refreshSyncTerminations c).1 = e := by
    intro ht
    rw [refresh_of_recorded ht]
  have hcases := e.accept_cases c data
  generalize e.refreshSyncTerminations c = refreshed at *
  generalize e.accept c data = accepted at *
  obtain ⟨e₁, c₁⟩ := refreshed
  simp only at hf hkeep hcases ⊢
  have hlim : e₁.limitAvailable = e.limitAvailable := by rw [hf]; rfl
  have hmax : e₁.maxBuffer = e.maxBuffer := by rw [hf]
  have hbuf : e₁.buffered = e.buffered := by rw [hf]
  have hroom : min (min data.length e₁.limitAvailable) (e₁.maxBuffer - e₁.buffered) = e.room data := by
    rw [hlim, hmax, hbuf]
    rfl
  cases hcases with
  | idle hnil => exact absurd hnil hne
  | refused _ hz =>
    -- A limit at zero has its termination recorded, so refusing adds nothing.
    have hrec := h.exhausted (hex.2 (hlim ▸ hz))
    obtain rfl := hkeep hrec
    have hroom₀ : e₁.room data = 0 := by
      rw [← hroom, hz]
      simp
    have hsame : e₁.refuseAtLimit = e₁ := by
      unfold refuseAtLimit
      split
      · next hn _ => simp [hn] at hrec
      · rfl
    rw [if_pos hroom₀, hsame]
  | into =>
    have hblack₁ : e₁.blackhole = none := by rw [hf]; exact hblack
    have hloss₁ : e₁.streamLoss.any Option.isSome = false := by rw [hf]; exact hloss
    simp only [acceptInto, blackholeDiscarding, hblack₁, hloss₁, Bool.false_eq_true, if_false, hroom]

theorem accept_room {e : DirectionEngine} (h : e.Healthy) (hp : e.isPreservingOnly) (c : Clock)
    {data : List Byte} (hne : data ≠ []) : (e.accept c data).1 = e.room data := by
  obtain ⟨t, handle, ev, hf, -⟩ := (e.refresh_published c).frame
  rw [accept_preserving h.capped hp c hne]
  generalize e.refreshSyncTerminations c = refreshed at *
  obtain ⟨e₁, c₁⟩ := refreshed
  simp only at hf ⊢
  have hmax : e₁.maxBuffer = e.maxBuffer := by rw [hf]
  have hbuf : e₁.buffered = e.buffered := by rw [hf]
  have hfits := h.fits
  have hlen : (data.take (e.room data)).length = e.room data := by
    rw [List.length_take, room]
    omega
  split
  · next hz => exact hz.symm
  · rw [e₁.acceptPreserving_fst _ c₁.now (by rw [hlen, hmax, hbuf, room]; omega), hlen]

/-- Bytes beyond the room make no difference. -/
theorem accept_take {e : DirectionEngine} (h : e.Capped) (hp : e.isPreservingOnly) (c : Clock) {data : List Byte}
    {m : Nat} (hm : e.room data ≤ m) (hne : data.take m ≠ []) : e.accept c (data.take m) = e.accept c data := by
  have hdata : data ≠ [] := by
    rintro rfl
    exact hne (List.take_nil)
  have hroom : e.room (data.take m) = e.room data := by
    unfold room at hm ⊢
    rw [List.length_take]
    omega
  rw [accept_preserving h hp c hne, accept_preserving h hp c hdata, hroom, List.take_take, Nat.min_eq_left hm]

end DirectionEngine

end Eggchaos
