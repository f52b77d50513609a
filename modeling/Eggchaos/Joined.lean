import Eggchaos.StreamRuns
/-!
# Vectored acceptance

`accept_vectored` copies only the prefix of its slices that
`bounded_accept_capacity` allows. `Reachable` are the states an engine gets into
through its own calls and through publications by other holders of its
termination handle; in all of them the bytes beyond that prefix make no
difference to `accept`.
-/

namespace Eggchaos
open Lib

namespace DirectionEngine

/-- The states of an engine, from construction on. -/
inductive Reachable : DirectionEngine → Prop
  | newWithArcPlan (plan : FaultPlan) (ident : Identity) (handle : TerminationHandle) (c : Clock) {c' e}
      (h : newWithArcPlan plan ident handle c = (.ok e, c')) : Reachable e
  | empty (c : Clock) : Reachable (empty c).1
  | accept {e} (h : Reachable e) (c : Clock) (input : List Byte) : Reachable (e.accept c input).2.1
  | acceptVectored {e} (h : Reachable e) (c : Clock) (bufs : List (List Byte)) : Reachable (e.acceptVectored c bufs).2.1
  | pollFlush {e} {τ : Type} [AsyncWrite τ] (h : Reachable e) (inner : Tap τ) (c : Clock) :
      Reachable (e.pollFlush inner c).2.1
  | pollShutdown {e} {τ : Type} [AsyncWrite τ] (h : Reachable e) (inner : Tap τ) (c : Clock) :
      Reachable (e.pollShutdown inner c).2.1
  | pollDueTermination {e} (h : Reachable e) (c : Clock) : Reachable (e.pollDueTermination c).2.1
  | refreshSyncTerminations {e} (h : Reachable e) (c : Clock) : Reachable (e.refreshSyncTerminations c).1
  | absorbEvidence {e} (h : Reachable e) (previous : EngineEvidence) : Reachable (e.absorbEvidence previous)
  /-- Another holder of the handle publishes. -/
  | publish {e} (h : Reachable e) (info : TerminationInfo) :
      Reachable { e with termHandle := e.termHandle.publish info }

theorem accept_capped {e : DirectionEngine} (h : e.Capped) (c : Clock) (input : List Byte) :
    (e.accept c input).2.1.Capped := by
  obtain ⟨ident, k, hl⟩ := h.lossAt
  exact (accept_accepted hl c input).capped ((e.refresh_passed c).capped h)

theorem Reachable.capped {e : DirectionEngine} (h : Reachable e) : e.Capped := by
  induction h with
  | newWithArcPlan _ _ _ _ h =>
    obtain ⟨-, rfl, -⟩ := newWithArcPlan_ok h
    exact (compile_healthy _ _ _ _).capped
  | empty c => exact (empty_healthy c).capped
  | accept _ c input ih => exact accept_capped ih c input
  | @acceptVectored e _ c bufs ih =>
    obtain ⟨m, hm⟩ := e.acceptVectored_eq c bufs
    rw [hm]
    exact accept_capped ih c _
  | @pollFlush e τ _ _ inner c ih =>
    obtain ⟨out, hp, -⟩ := e.pollFlush_passed inner c
    exact hp.capped ih
  | @pollShutdown e τ _ _ inner c ih =>
    obtain ⟨out, hp, -⟩ := e.pollShutdown_passed inner c
    exact hp.capped ih
  | @pollDueTermination e _ c ih => exact (e.pollDueTermination_passed c).capped ih
  | @refreshSyncTerminations e _ c ih => exact (e.refresh_passed c).capped ih
  | absorbEvidence _ previous ih =>
    obtain ⟨ident, k, hl⟩ := ih.lossAt
    exact ⟨ih.exhausted, ih.limit, ih.preserving, ident, k, hl.states, hl.decided, hl.offset⟩
  | publish _ info ih =>
    obtain ⟨ident, k, hl⟩ := ih.lossAt
    exact ⟨ih.exhausted, ih.limit, ih.preserving, ident, k, hl.states, hl.decided, hl.offset⟩

/-- Nothing that the prefix leaves out could have been taken. -/
theorem room_le_prefix {e : DirectionEngine} (h : e.Capped) (bufs : List (List Byte)) :
    e.room bufs.flatten ≤ min (totalLength bufs) e.boundedAcceptCapacity := by
  have hlimit := h.limit
  rw [totalLength_eq, room, boundedAcceptCapacity, clampU64]
  omega

theorem accept_nil (e : DirectionEngine) (c : Clock) : e.accept c [] = (0, e.refreshSyncTerminations c) := rfl

/-- Without room a call only refreshes. -/
theorem accept_roomless {e : DirectionEngine} (h : e.Capped) (hp : e.isPreservingOnly) (c : Clock) {data : List Byte}
    (hz : e.room data = 0) :
    (e.accept c data).1 = 0 ∧ (e.accept c data).2.1 = (e.refreshSyncTerminations c).1 := by
  rcases eq_or_ne data [] with rfl | hne
  · exact ⟨rfl, rfl⟩
  · rw [accept_preserving h hp c hne]
    simp only [hz, if_true]
    exact ⟨trivial, trivial⟩

theorem totalLength_eq_zero {bufs : List (List Byte)} : totalLength bufs = 0 ↔ bufs.flatten = [] := by
  rw [totalLength_eq, ← List.length_eq_zero_iff, clampU64]
  have := one_le_u64Max
  omega

/-- Taking the slices one by one up to the computed bound takes as much, and
leaves the engine as it is left, when they are joined first. -/
theorem acceptVectored_joined {e : DirectionEngine} (h : Reachable e) (c : Clock) (bufs : List (List Byte)) :
    (e.acceptVectored c bufs).1 = (e.accept c bufs.flatten).1 ∧
      (e.acceptVectored c bufs).2.1 = (e.accept c bufs.flatten).2.1 := by
  have hcap := h.capped
  unfold acceptVectored
  simp only [totalLength_eq_zero]
  split
  · next hnil =>
    rw [hnil, accept_nil]
    exact ⟨rfl, rfl⟩
  · next hne =>
    split
    · exact ⟨rfl, rfl⟩
    · next hpres =>
      have hpres : e.isPreservingOnly := by simpa using hpres
      have hroom := room_le_prefix hcap bufs
      split
      · next hbound =>
        have hz : e.room bufs.flatten = 0 := by omega
        obtain ⟨hcount, hengine⟩ := accept_roomless hcap hpres c hz
        rw [hcount, hengine, accept_nil]
        exact ⟨rfl, rfl⟩
      · next hbound =>
        have htake : bufs.flatten.take (min (totalLength bufs) e.boundedAcceptCapacity) ≠ [] := by
          have htotal := mt totalLength_eq_zero.1 hne
          rw [Ne, List.take_eq_nil_iff, not_or]
          exact ⟨by omega, hne⟩
        rw [joinPrefix_eq, accept_take hcap hpres c hroom htake]
        exact ⟨rfl, rfl⟩

/-- Latency with two bytes of room. -/
def narrowPlan : FaultPlan := ⟨[StreamRun.slow 0 ⟨2, Nat.two_pos, two_le_u64Max⟩]⟩

def narrow : DirectionEngine := compile narrowPlan ⟨7, "proxy", 1, .upstream⟩ .new 0

/-- The second slice reaches beyond the room. -/
theorem acceptVectored_joined_narrow :
    (narrow.acceptVectored (.still 0) [[1], [2, 3]]).1 = 2 ∧
      (narrow.acceptVectored (.still 0) [[1], [2, 3]]).2.1 = (narrow.accept (.still 0) [1, 2, 3]).2.1 :=
  ⟨by decide,
    (acceptVectored_joined (.newWithArcPlan narrowPlan _ _ (.still 0) rfl) (.still 0) [[1], [2, 3]]).2⟩

end DirectionEngine

end Eggchaos
