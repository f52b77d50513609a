import Eggchaos.Balance
import Eggchaos.BidirectionalRuns
/-!
# Reads that wait with bytes in hand

`poll_read` of the bidirectional stream serves `output` first, but three of the
places that drive the downstream engine, or wait for the upstream one, do not
look at it: the two barriers of `update_policies`, the direct read under an
empty plan, and the turn that flushes the queue. A drive that captures the head
of the queue and stays pending on the rest makes that turn wait, while the
branches beside it serve what they have.

`HoldsBack` says when a read waits so, by the branches it comes to.
-/

namespace Eggchaos
open Lib

/-- A drive of the queue into an empty output captures some bytes and stays
pending on others. -/
def DirectionEngine.Splits (e : DirectionEngine) (c : Clock) : Prop :=
  e.HeadLeaves (CaptureWriter.mk []) c ∧ (e.pollFlush (CaptureWriter.mk []) c).1.isPending

instance (e : DirectionEngine) (c : Clock) : Decidable (e.Splits c) := inferInstanceAs (Decidable (_ ∧ _))

namespace BidirectionalChaosStream

/-- A poll that has ended pending, with released bytes still in the output. -/
def Withheld {τ : Type} : Option (Poll (IoResult (List Byte)) × BidirectionalChaosStream τ × Clock) → Prop
  | some (.pending, s, _) => s.output ≠ []
  | _ => False

instance {τ : Type} (r : Option (Poll (IoResult (List Byte)) × BidirectionalChaosStream τ × Clock)) :
    Decidable (Withheld r) := by
  unfold Withheld
  split
  · infer_instance
  · infer_instance

section
variable {τ : Type} [AsyncRead τ]

/-! ## A turn of the loop -/

/-- The turn flushes a queue of which only a part is due. -/
def TurnHoldsBack (s : BidirectionalChaosStream τ) (c : Clock) : Prop :=
  s.output = [] ∧ s.pendingDownstream = [] ∧ s.downstream.Splits c

instance (s : BidirectionalChaosStream τ) (c : Clock) : Decidable (s.TurnHoldsBack c) :=
  inferInstanceAs (Decidable (_ ∧ _ ∧ _))

/-- Some turn of the loop does. -/
def LoopHoldsBack : Nat → BidirectionalChaosStream τ → Clock → Nat → Prop
  | 0, _, _, _ => False
  | fuel + 1, s, c, cap => s.TurnHoldsBack c ∨
    match s.readTurn c cap with
    | .done _ _ _ => False
    | .again s c => LoopHoldsBack fuel s c cap

instance LoopHoldsBack.decidable : ∀ (fuel : Nat) (s : BidirectionalChaosStream τ) (c : Clock) (cap : Nat),
    Decidable (LoopHoldsBack fuel s c cap)
  | 0, _, _, _ => .isFalse id
  | fuel + 1, s, c, cap =>
    @instDecidableOr (s.TurnHoldsBack c) _ _ (match s.readTurn c cap with
      | .done _ _ _ => .isFalse id
      | .again s c => LoopHoldsBack.decidable fuel s c cap)

end

/-- What the flush of an empty output leaves in it. -/
theorem flushDownstream_output {τ : Type} {s : BidirectionalChaosStream τ} (h : s.output = []) (c : Clock) :
    (s.flushDownstream c).2.1.output ≠ [] ↔ s.downstream.HeadLeaves (CaptureWriter.mk []) c := by
  obtain ⟨out, hd, hout⟩ := s.downstream.pollFlush_forwards (CaptureWriter.mk []) c
  obtain ⟨out', hp, hout'⟩ := s.flushDownstream_passed c
  have hsame : (s.flushDownstream c).2.1.downstream = (s.downstream.pollFlush (CaptureWriter.mk []) c).2.1 := by
    unfold flushDownstream
    rw [h]
  rw [hsame] at hp
  have hbytes : out' = out := List.append_cancel_right (hp.bytes.symm.trans hd.bytes)
  rw [hout', h, List.nil_append, hbytes]
  exact hout

theorem flushDownstream_fst {τ : Type} {s : BidirectionalChaosStream τ} (h : s.output = []) (c : Clock) :
    (s.flushDownstream c).1 = (s.downstream.pollFlush (CaptureWriter.mk []) c).1 := by
  unfold flushDownstream
  rw [h]

section
variable {τ : Type}

/-- The barrier of a new downstream plan captures a part of the queue. -/
def BarrierHoldsBack (s : BidirectionalChaosStream τ) (c : Clock) : Prop :=
  (LivePolicy.newer s.downstreamPolicy s.observedDownstream).isSome ∧ s.output = [] ∧ s.downstream.Splits c

theorem barrierHoldsBack_iff (s : BidirectionalChaosStream τ) (c : Clock) :
    s.BarrierHoldsBack c ↔ (s.updateDownstream c).1 = .pending ∧ (s.updateDownstream c).2.1.output ≠ [] := by
  unfold BarrierHoldsBack updateDownstream
  cases LivePolicy.newer s.downstreamPolicy s.observedDownstream with
  | none => simp
  | some snapshot =>
    simp only [Option.isSome_some, true_and]
    split
    · next hne =>
      have hne : s.output ≠ [] := by simpa using hne
      simp [hne]
    · next hout =>
      have hout : s.output = [] := by simpa using hout
      have hflush := flushDownstream_output hout c
      rw [hout]
      simp only [true_and, DirectionEngine.Splits, DirectionEngine.barrier]
      split
      · next hq =>
        have hq : s.downstream.queue = [] := by simpa [DirectionEngine.queueIsEmpty] using hq
        have hleaves := DirectionEngine.headLeaves_of_nil hq (CaptureWriter.mk []) c
        simp [hleaves]
      · simp only [flushDownstream, hout] at hflush
        rw [← hflush]
        generalize s.downstream.pollFlush (CaptureWriter.mk []) c = flush
        obtain ⟨outcome, downstream, captured, c'⟩ := flush
        cases outcome with
        | pending => simp [Poll.isPending]
        | ready _ => simp [Poll.isPending]

variable [AsyncWrite τ]

theorem pump_output (s : BidirectionalChaosStream τ) (c : Clock) : (s.pump c).1.output = s.output := by
  unfold pump
  split
  · rfl
  · rfl

theorem updateUpstream_output (s : BidirectionalChaosStream τ) (c : Clock) :
    (s.updateUpstream c).2.1.output = s.output := by
  unfold updateUpstream
  split
  · rfl
  · simp only
    split
    · rfl
    · rfl

end

section
variable {τ : Type} [AsyncRead τ]

/-- A turn that ends pending ends with an empty output, unless it holds back. -/
def Turn.Serves (t : Turn τ) : Prop := t.Sat (fun _ => True) fun outcome s => outcome = .pending → s.output = []

omit [AsyncRead τ] in
theorem offerPending_serves (s : BidirectionalChaosStream τ) (c : Clock) : (s.offerPending c).Serves := by
  unfold offerPending Turn.Serves
  simp only
  generalize ({ s with pendingDownstream := [] } : BidirectionalChaosStream τ).acceptDownstream c
    s.pendingDownstream = accepted
  split
  · split
    · exact fun h => by cases h
    · split
      · exact fun h => by cases h
      · split
        · next hp => exact fun _ => by simpa using hp.2
        · trivial
  · trivial

theorem readInner_serves {s : BidirectionalChaosStream τ} (h : s.output = []) (c : Clock) : (s.readInner c).Serves := by
  unfold readInner Turn.Serves
  split
  · simp only
    split
    · exact fun h => by cases h
    · split
      · exact fun _ => h
      · trivial
  · exact fun h => by cases h
  · exact fun _ => h

theorem readGraceful_serves (s : BidirectionalChaosStream τ) (c : Clock) : (s.readGraceful c).Serves := by
  unfold readGraceful Turn.Serves
  split
  · simp only
    split
    · exact fun h => by cases h
    · split
      · trivial
      · split
        · exact fun h => by cases h
        · split
          · next hp => exact fun _ => by simpa using hp.2
          · trivial
  · exact fun h => by cases h
  · exact fun h => by cases h

theorem readDrained_serves {s : BidirectionalChaosStream τ} (h : s.output = []) (c : Clock) :
    (s.readDrained c).Serves := by
  unfold readDrained
  split
  · exact readGraceful_serves s c
  · exact fun h => by cases h
  · exact readInner_serves h c

/-- The flushing turn is the one that may not serve. -/
theorem readTurn_serves {s : BidirectionalChaosStream τ} {c : Clock} (h : ¬ s.TurnHoldsBack c) (cap : Nat) :
    (s.readTurn c cap).Serves := by
  unfold readTurn
  split
  · exact fun h => by cases h
  next hout =>
  have hout : s.output = [] := by simpa using hout
  split
  · exact offerPending_serves s c
  next hpend =>
  have hpend : s.pendingDownstream = [] := by simpa using hpend
  split
  · have hflush := flushDownstream_output hout c
    have hfst := flushDownstream_fst hout c
    split
    · next s' c' hr =>
      rw [hr] at hflush hfst
      intro _
      by_contra hne
      exact h ⟨hout, hpend, hflush.1 hne, by rw [← hfst]; rfl⟩
    · exact fun h => by cases h
    · next s' c' hr =>
      simp only
      split
      · trivial
      · next hout' => exact readDrained_serves (by simpa using hout') c'
  · exact readDrained_serves hout c

theorem readTurn_withholds {s : BidirectionalChaosStream τ} {c : Clock} (h : s.TurnHoldsBack c) (cap : Nat) :
    ∃ s' c', s.readTurn c cap = .done .pending s' c' ∧ s'.output ≠ [] := by
  obtain ⟨hout, hpend, hleaves, hpending⟩ := h
  have hflush := (flushDownstream_output hout c).2 hleaves
  rw [← flushDownstream_fst hout c] at hpending
  have hqueue : s.downstream.queueIsEmpty = false := by
    by_contra hq
    have hq : s.downstream.queue = [] := by simpa [DirectionEngine.queueIsEmpty] using hq
    exact DirectionEngine.headLeaves_of_nil hq _ _ hleaves
  unfold readTurn
  rw [if_neg (by simp [hout]), if_neg (by simp [hpend]), if_pos (by simp [hqueue])]
  split
  · next hr =>
    rw [hr] at hflush
    exact ⟨_, _, rfl, hflush⟩
  · next hr =>
    rw [hr] at hpending
    cases hpending
  · next hr =>
    rw [hr] at hpending
    cases hpending

theorem readLoop_withheld_iff (fuel : Nat) (s : BidirectionalChaosStream τ) (c : Clock) (cap : Nat) :
    Withheld (readLoop fuel s c cap) ↔ LoopHoldsBack fuel s c cap := by
  induction fuel generalizing s c with
  | zero => simp [Withheld, readLoop, LoopHoldsBack]
  | succ fuel ih =>
    unfold readLoop LoopHoldsBack
    by_cases hturn : s.TurnHoldsBack c
    · obtain ⟨s', c', hr, hout⟩ := readTurn_withholds hturn cap
      rw [hr]
      simp only [hturn, true_or, iff_true]
      exact hout
    · have hserves := readTurn_serves hturn cap
      simp only [hturn, false_or]
      generalize s.readTurn c cap = turn at hserves
      cases turn with
      | again s' c' => exact ih s' c'
      | done outcome s' c' =>
        simp only [iff_false]
        intro hne
        cases outcome with
        | pending => exact hne (hserves rfl)
        | ready _ => exact hne

variable [AsyncWrite τ]

/-! ## Whole reads -/

/-- A read under an empty plan, which goes to the transport and finds nothing, or
one that comes to a turn that holds back. -/
def SettledHoldsBack (fuel : Nat) (s : BidirectionalChaosStream τ) (c : Clock) (cap : Nat) : Prop :=
  if (s.pump c).1.downstream.isEmpty then
    s.output ≠ [] ∧ (AsyncRead.pollRead (s.pump c).1.inner cap).1.isPending
  else LoopHoldsBack fuel (s.pump c).1 (s.pump c).2 cap

/-- The read waits with bytes in the output: at the barrier of the upstream
engine, at its own, or once the policies are settled. -/
def ReadHoldsBack (fuel : Nat) (s : BidirectionalChaosStream τ) (c : Clock) (cap : Nat) : Prop :=
  match s.updateUpstream c with
  | (.pending, _, _) => s.output ≠ []
  | (.ready (), s, c) => s.BarrierHoldsBack c ∨
    match s.updateDownstream c with
    | (.pending, _, _) => False
    | (.ready (), s, c) => SettledHoldsBack fuel s c cap

theorem settledRead_withheld_iff (fuel : Nat) (s : BidirectionalChaosStream τ) (c : Clock) (cap : Nat) :
    Withheld (s.settledRead fuel c cap) ↔ SettledHoldsBack fuel s c cap := by
  have hout := s.pump_output c
  unfold settledRead SettledHoldsBack
  generalize s.pump c = pumped at *
  obtain ⟨s₁, c₁⟩ := pumped
  simp only at hout ⊢
  split
  · rw [← hout]
    generalize AsyncRead.pollRead s₁.inner cap = answer
    obtain ⟨outcome, inner⟩ := answer
    cases outcome with
    | pending => exact ⟨fun hne => ⟨hne, rfl⟩, fun h => h.1⟩
    | ready answer =>
      constructor
      · intro h
        cases answer with
        | ok bytes => exact h.elim
        | error error => exact h.elim
      · rintro ⟨-, hpending⟩
        cases hpending
  · exact readLoop_withheld_iff fuel s₁ c₁ cap

theorem pollRead_withheld_iff (fuel : Nat) (s : BidirectionalChaosStream τ) (c : Clock) (cap : Nat) :
    Withheld (s.pollRead fuel c cap) ↔ ReadHoldsBack fuel s c cap := by
  have hout := s.updateUpstream_output c
  unfold pollRead updatePolicies ReadHoldsBack
  generalize s.updateUpstream c = upstream at hout
  obtain ⟨outcome, s₁, c₁⟩ := upstream
  simp only at hout
  cases outcome with
  | pending =>
    simp only
    rw [← hout]
    exact Iff.rfl
  | ready _ =>
    simp only
    rw [barrierHoldsBack_iff]
    generalize s₁.updateDownstream c₁ = downstream
    obtain ⟨outcome, s₂, c₂⟩ := downstream
    cases outcome with
    | pending =>
      simp only [true_and, or_false]
      exact Iff.rfl
    | ready _ => simpa using settledRead_withheld_iff fuel s₂ c₂ cap

end

end BidirectionalChaosStream

namespace BidirectionalRun
variable {τ : Type} [AsyncWrite τ] [AsyncRead τ]

/-! ## Runs -/

/-- A read into a buffer with room that waits with released bytes in the output. -/
def Withholds (s : BidirectionalRun τ) : Op → Prop
  | .read cap fuel => 0 < cap ∧ BidirectionalChaosStream.Withheld (s.stream.pollRead fuel s.clock cap)
  | _ => False

/-- The read comes to a branch that waits without looking at the output. -/
def HoldsBack (s : BidirectionalRun τ) : Op → Prop
  | .read cap fuel => 0 < cap ∧ s.stream.ReadHoldsBack fuel s.clock cap
  | _ => False

/-- Along any run reads hand out what is released before they wait, exactly if
none of them holds back. -/
theorem released_delivered_iff (s : BidirectionalRun τ) (ops : List Op) :
    Along step (fun s op => ¬ s.Withholds op) s ops ↔ Along step (fun s op => ¬ s.HoldsBack op) s ops := by
  refine along_congr (fun _ => True) (fun _ _ _ _ => trivial) (fun s op _ => not_congr ?_) trivial ops
  cases op with
  | read cap fuel => exact and_congr_right fun _ => s.stream.pollRead_withheld_iff fuel s.clock cap
  | _ => exact Iff.rfl

/-- Bytes one by one, a millisecond apart. -/
def slicedPlan : FaultPlan :=
  ⟨[StreamRun.always "slow" (.slice ⟨⟨1, Nat.one_pos, one_le_u64Max⟩, 0, 1000000⟩) StreamRun.slow_nonempty
    StreamRun.slow_short]⟩

theorem slicedPlan_valid : slicedPlan.validate = .ok () := rfl

/-- Of two bytes from the transport the first is due at once. The read captures
it and waits for the second. -/
theorem read_waits_with_output :
    ¬ ∀ (s : BidirectionalRun Script), Started s → ∀ ops, Along step (fun s op => ¬ s.Withholds op) s ops := by
  intro hall
  have h := hall _ (start_started { reads := [.ready (.ok [1, 2])] } (.new .empty 0 FaultPlan.validate_empty)
    (.new slicedPlan 0 slicedPlan_valid) "proxy" 1 (.still 0)) [.read 8 3]
  exact h.1 ⟨by decide, by decide +kernel⟩

end BidirectionalRun

end Eggchaos
