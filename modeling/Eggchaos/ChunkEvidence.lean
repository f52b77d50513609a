import Eggchaos.Conservation
import Mathlib.Data.Finset.Card
/-!
# Chunk counters of stream loss

A chunk is decided, and counted, when the classification of an acceptance reaches
it, before the room of the queue is looked at. The counters then stand for the
chunks decided so far (`Counted`), which are those with an accepted byte and, where
an acceptance got stuck right at the beginning of a chunk, that one too
(`Stops`). `chunk_evidence_iff` says which runs never get there.
-/

namespace Eggchaos
open Lib

namespace DirectionEngine

/-! ## Counting decisions -/

/-- The dropped ones of the first `k` chunks. -/
def Identity.droppedBelow (ident : Identity) (plan : FaultPlan) (k : Nat) : Nat :=
  ((Finset.range k).filter fun chunk => ident.dropChunk plan chunk).card

theorem droppedBelow_succ (ident : Identity) (plan : FaultPlan) (k : Nat) :
    ident.droppedBelow plan (k + 1) = ident.droppedBelow plan k + if ident.dropChunk plan k then 1 else 0 := by
  unfold Identity.droppedBelow
  rw [Finset.range_add_one, Finset.filter_insert]
  split
  · rw [Finset.card_insert_of_notMem (by simp)]
  · rfl

theorem droppedBelow_le (ident : Identity) (plan : FaultPlan) (k : Nat) : ident.droppedBelow plan k ≤ k := by
  have hle := Finset.card_filter_le (Finset.range k) fun chunk => ident.dropChunk plan chunk = true
  rwa [Finset.card_range] at hle

/-- The chunks of the first `n` bytes. -/
def chunksOf (n : Nat) : Nat := (n + streamLossGrainBytes - 1) / streamLossGrainBytes

/-- The first `k` chunks are decided and counted. -/
structure Counted (ident : Identity) (k : Nat) (e : DirectionEngine) : Prop extends LossAt ident k e where
  next : e.streamLossEvaluated = k
  evaluated : e.evidence.streamLossChunksEvaluated = k
  dropped : e.evidence.streamLossChunksDropped = ident.droppedBelow e.plan k

/-- What counting chunks looks at has not changed. -/
structure SameLoss (e e' : DirectionEngine) : Prop where
  plan : e'.plan = e.plan
  states : e'.streamLoss = e.streamLoss
  offset : e'.streamLossOffset = e.streamLossOffset
  next : e'.streamLossEvaluated = e.streamLossEvaluated
  evaluated : e'.evidence.streamLossChunksEvaluated = e.evidence.streamLossChunksEvaluated
  dropped : e'.evidence.streamLossChunksDropped = e.evidence.streamLossChunksDropped

variable {ident : Identity} {k : Nat} {e e' : DirectionEngine}

theorem Counted.same (h : Counted ident k e) (hsame : SameLoss e e') : Counted ident k e' where
  states := by
    rw [hsame.plan, hsame.states]
    exact h.states
  decided := by
    rw [hsame.offset]
    exact h.decided
  offset := by
    rw [hsame.offset]
    exact h.offset
  next := hsame.next.trans h.next
  evaluated := hsame.evaluated.trans h.evaluated
  dropped := by
    rw [hsame.dropped, hsame.plan]
    exact h.dropped

theorem Published.sameLoss {infos} (h : Published e infos e') : SameLoss e e' := by
  obtain ⟨t, handle, ev, rfl, hev⟩ := h.frame
  have hevaluated := congrArg EngineEvidence.streamLossChunksEvaluated hev
  have hdropped := congrArg EngineEvidence.streamLossChunksDropped hev
  exact ⟨rfl, rfl, rfl, rfl, hevaluated, hdropped⟩

theorem Pushed.sameLoss {data : List Byte} (h : Pushed e data e') : SameLoss e e' := by
  obtain ⟨rngs, bandwidth, cursor, ev, hf, hev⟩ := h.frame
  have hevaluated := congrArg EngineEvidence.streamLossChunksEvaluated hev
  have hdropped := congrArg EngineEvidence.streamLossChunksDropped hev
  rw [hf]
  exact ⟨rfl, rfl, rfl, rfl, hevaluated, hdropped⟩

theorem Spent.sameLoss {n : Nat} (h : Spent e e' n) : SameLoss e e' := by
  obtain ⟨limit, t, handle, request, acts, rfl⟩ := h.frame
  exact ⟨rfl, rfl, rfl, rfl, rfl, rfl⟩

theorem Passed.sameLoss {out : List Byte} (h : Passed e out e') : SameLoss e e' := by
  obtain ⟨_, _, _, _, _, _, _, hf⟩ := h.frame
  rw [hf]
  exact ⟨rfl, rfl, rfl, rfl, rfl, rfl⟩

/-- Deciding the chunk of the next byte counts it unless it has been. -/
theorem Counted.decide (h : Counted ident k e) (hk : e.streamLossOffset / streamLossGrainBytes ≤ k) :
    Counted ident (e.streamLossOffset / streamLossGrainBytes + 1)
      (e.decideStreamLossChunk (e.streamLossOffset / streamLossGrainBytes)).2 := by
  obtain ⟨hdrop, hloss, -⟩ := decideStreamLossChunk_spec h.toLossAt
  have hdecided := h.decided
  have hsmall : e.streamLossOffset / streamLossGrainBytes + 1 ≤ u64Max := by
    have hoff := h.offset
    simp only [streamLossGrainBytes, u64Max] at *
    omega
  unfold Identity.dropsAt at hdrop
  generalize e.streamLossOffset / streamLossGrainBytes = chunk at *
  have hnext := h.next
  have hevaluated := h.evaluated
  have hdropped := h.dropped
  have hbelow := droppedBelow_le ident e.plan k
  unfold decideStreamLossChunk at hdrop hloss ⊢
  generalize decideFaults e.plan.faults e.streamLoss chunk = decided at *
  dsimp only at hdrop hloss ⊢
  by_cases hnew : chunk = e.streamLossEvaluated
  · obtain rfl : chunk = k := hnew.trans hnext
    rw [if_pos hnew] at hdrop hloss ⊢
    refine ⟨hloss, ?_, ?_, ?_⟩
    · rw [hnext]
    · rw [hevaluated]
      exact clampU64_of_le hsmall
    · dsimp only at hdrop ⊢
      rw [droppedBelow_succ, hdropped, hdrop]
      split
      · exact clampU64_of_le (by omega)
      · rfl
  · have hold : k = chunk + 1 := by omega
    rw [if_neg hnew] at hdrop hloss ⊢
    exact ⟨hloss, hnext.trans hold, hevaluated.trans hold, hold ▸ hdropped⟩

theorem Counted.advance {m : Nat} (h : Counted ident k e) (hm : e.streamLossOffset + m ≤ u64Max) :
    Counted ident k { e with streamLossOffset := satAdd e.streamLossOffset m } :=
  ⟨h.toLossAt.advance hm, h.next, h.evaluated, h.dropped⟩

/-! ## Where an acceptance stops -/

/-- How classifying `n` bytes from offset `o` ends, with `k` chunks counted before:
at the end of the bytes, or of the offsets, with every chunk counted that holds an
accepted byte; or before a byte that no fault drops and a full queue cannot own,
with the chunk of that byte counted too. -/
inductive Stops (ident : Identity) (o k n : Nat) (e' : DirectionEngine) : Prop where
  | all : e'.streamLossOffset = min (o + n) u64Max →
      Counted ident (if e'.streamLossOffset = o then k else chunksOf e'.streamLossOffset) e' → Stops ident o k n e'
  | full : o ≤ e'.streamLossOffset → e'.streamLossOffset < min (o + n) u64Max → e'.maxBuffer ≤ e'.buffered →
      ident.dropsAt e'.plan e'.streamLossOffset = false →
      Counted ident (e'.streamLossOffset / streamLossGrainBytes + 1) e' → Stops ident o k n e'

theorem Stops.same {o n : Nat} (h : Stops ident o k n e) (hsame : SameLoss e e') (hb : e'.buffered = e.buffered)
    (hm : e'.maxBuffer = e.maxBuffer) : Stops ident o k n e' := by
  cases h with
  | all hend hcount =>
    refine .all (hsame.offset.trans hend) ?_
    rw [hsame.offset]
    exact hcount.same hsame
  | full hle hlt hroom hkept hcount =>
    refine .full ?_ ?_ ?_ ?_ ?_
    · rwa [hsame.offset]
    · rwa [hsame.offset]
    · rwa [hb, hm]
    · rwa [hsame.offset, hsame.plan]
    · rw [hsame.offset]
      exact hcount.same hsame

/-- Nothing to classify. -/
theorem Counted.stops (h : Counted ident k e) : Stops ident e.streamLossOffset k 0 e := by
  refine .all ?_ ?_
  · exact (Nat.min_eq_left h.offset).symm
  · rwa [if_pos rfl]

/-- A stretch inside the current chunk, then the rest. -/
theorem Stops.after {o m n : Nat} (hm : 0 < m) (hmn : m ≤ n) (hend : o + m ≤ u64Max)
    (h : Stops ident (o + m) (chunksOf (o + m)) (n - m) e') : Stops ident o k n e' := by
  cases h with
  | all hoff hcount =>
    have hmoved : e'.streamLossOffset ≠ o := by omega
    refine .all ?_ ?_
    · rw [hoff]
      congr 1
      omega
    · rw [if_neg hmoved]
      split at hcount
      · next heq => rwa [heq]
      · exact hcount
  | full hle hlt hroom hkept hcount =>
    refine .full ?_ ?_ hroom hkept hcount
    · omega
    · omega

/-- Behind a stretch of the current chunk no later chunk has a byte. -/
theorem chunksOf_add {o m : Nat} (ho : o ≤ u64Max) (hm : 0 < m)
    (hrun : m ≤ chunkEnd (o / streamLossGrainBytes) - o) :
    chunksOf (o + m) = o / streamLossGrainBytes + 1 := by
  have hsame := (chunkEnd_spec ho hrun).2 (m - 1) (by omega)
  simp only [chunksOf, streamLossGrainBytes] at hsame ⊢
  omega

theorem classifyLoop_stops (now fuel : Nat) (h : Counted ident k e)
    (hk : e.streamLossOffset / streamLossGrainBytes ≤ k) (rest : List Byte) (hfuel : rest.length ≤ fuel)
    (acc : Classified) :
    Stops ident e.streamLossOffset k rest.length (classifyLoop now fuel e rest acc).2 := by
  induction fuel generalizing k e rest acc with
  | zero =>
    obtain rfl : rest = [] := by simpa using hfuel
    exact h.stops
  | succ fuel ih =>
    simp only [classifyLoop]
    split
    · next hnil =>
      obtain rfl : rest = [] := by simpa using hnil
      exact h.stops
    next hne =>
    have hpos : 0 < rest.length := by simpa [List.length_pos_iff] using hne
    have hself := chunkEnd_eq_self h.offset
    have hoffset := h.offset
    generalize hrun : min (chunkEnd (e.streamLossOffset / streamLossGrainBytes) - e.streamLossOffset) rest.length = run
    split
    · -- Every offset is used up.
      next hz =>
      have hlast : e.streamLossOffset = u64Max := hself.1 (by omega)
      have hend : e.streamLossOffset = min (e.streamLossOffset + rest.length) u64Max := by omega
      refine .all hend ?_
      rwa [if_pos rfl]
    next hz =>
    have hroom : e.streamLossOffset ≠ u64Max := fun heq => hz (by have := hself.2 heq; omega)
    have hcount := h.decide hk
    obtain ⟨hdrop, -, hframe⟩ := decideStreamLossChunk_spec h.toLossAt
    generalize e.decideStreamLossChunk (e.streamLossOffset / streamLossGrainBytes) = decided at *
    obtain ⟨drop, e₁⟩ := decided
    obtain ⟨_, _, _, hf, -⟩ := hframe
    simp only at hdrop hcount hf ⊢
    have hoff : e₁.streamLossOffset = e.streamLossOffset := by rw [hf]
    have hplan : e₁.plan = e.plan := by rw [hf]
    -- Behind `m` bytes of the chunk the loop goes on with the chunk counted.
    have hgo : ∀ {m e₂} acc', 0 < m → m ≤ run → e₂.streamLossOffset = e.streamLossOffset + m →
        Counted ident (e.streamLossOffset / streamLossGrainBytes + 1) e₂ →
        Stops ident e.streamLossOffset k rest.length (classifyLoop now fuel e₂ (rest.drop m) acc').2 := by
      intro m e₂ acc' hm hle hoff₂ hcount₂
      have hchunks := chunksOf_add hoffset hm (show m ≤ _ by omega)
      have hend := (chunkEnd_spec hoffset (show m ≤ _ by omega)).1
      have hdiv : e₂.streamLossOffset / streamLossGrainBytes ≤ e.streamLossOffset / streamLossGrainBytes + 1 := by
        rw [hoff₂, ← hchunks]
        exact Nat.div_le_div_right (by simp only [streamLossGrainBytes]; omega)
      have hrest := ih hcount₂ hdiv (rest.drop m) (by rw [List.length_drop]; omega) acc'
      rw [hoff₂, ← hchunks, List.length_drop] at hrest
      exact hrest.after hm (by omega) hend
    have hend := (chunkEnd_spec hoffset (show run ≤ _ by omega)).1
    split
    -- The chunk is dropped, and the queue does not matter.
    · have hcount' := hcount.advance (m := run) (by rw [hoff]; exact hend)
      refine hgo _ (by omega) le_rfl ?_ (hcount'.same ⟨rfl, rfl, rfl, rfl, rfl, rfl⟩)
      rw [hoff]
      exact clampU64_of_le hend
    -- The chunk is kept as far as there is room.
    · next hno =>
      have hkept : ident.dropsAt e.plan e.streamLossOffset = false := hdrop ▸ by simpa using hno
      split
      · next hz' =>
        have hfull : e₁.maxBuffer ≤ e₁.buffered := by omega
        refine .full ?_ ?_ hfull ?_ ?_
        · exact hoff.ge
        · exact hoff.trans_lt (by omega)
        · exact (hplan.symm ▸ hoff.symm ▸ hkept :)
        · exact (hoff.symm ▸ hcount :)
      · next hz' =>
        obtain ⟨-, hpush⟩ := e₁.pushPreserveRun_pushed (rest.take (min run (e₁.maxBuffer - e₁.buffered))) now
        have hown : (e₁.pushPreserveRun (rest.take (min run (e₁.maxBuffer - e₁.buffered))) now).1 =
            min run (e₁.maxBuffer - e₁.buffered) := by
          rw [pushPreserveRun, pushLoop_owns now le_rfl (by rw [List.length_take]; omega), List.length_take]
          omega
        generalize e₁.pushPreserveRun (rest.take (min run (e₁.maxBuffer - e₁.buffered))) now = pushed at *
        obtain ⟨owned, latency, slice, e₂⟩ := pushed
        simp only at hown hpush ⊢
        have hsame := hpush.sameLoss
        have hoff₂ : e₂.streamLossOffset = e.streamLossOffset := hsame.offset.trans hoff
        rw [if_neg (by omega)]
        refine hgo _ (by omega) (by omega) ?_ ((hcount.same hsame).advance (by omega))
        rw [hoff₂]
        exact clampU64_of_le (by omega)

theorem acceptWithStreamLoss_stops (now : Nat) (h : Counted ident k e)
    (hk : e.streamLossOffset / streamLossGrainBytes ≤ k) (input : List Byte) :
    Stops ident e.streamLossOffset k (min input.length e.limitAvailable)
      (e.acceptWithStreamLoss input e.limitAvailable now).2 := by
  have hstops := classifyLoop_stops now (min input.length e.limitAvailable) h hk
    (input.take (min input.length e.limitAvailable)) (by rw [List.length_take]; omega) {}
  rw [List.length_take, Nat.min_eq_left (by omega)] at hstops
  simp only [acceptWithStreamLoss]
  generalize classifyLoop now _ e (input.take (min input.length e.limitAvailable)) {} = done at *
  obtain ⟨done, e₁⟩ := done
  simp only at hstops ⊢
  split
  · exact hstops
  · -- What is counted behind the loop are bytes.
    have hspent := spendLimit_spent { e₁ with evidence := { e₁.evidence with
      bytesAccepted := satAdd e₁.evidence.bytesAccepted done.offset
      bytesDiscarded := satAdd e₁.evidence.bytesDiscarded done.discarded
      streamLossBytesDiscarded := satAdd e₁.evidence.streamLossBytesDiscarded done.discarded
      activations := e₁.evidence.activations.bump fun i =>
        (i = 0 && done.latency) || (i = 1 && (e₁.bandwidth.isSome && 0 < done.preserved)) ||
          (i = 3 && e₁.remainingLimit.isSome) || (i = 5 && done.slice) } } done.offset
    have hsame := hspent.sameLoss
    obtain ⟨limit, t, handle, request, acts, hf⟩ := hspent.frame
    refine hstops.same ⟨hsame.plan, hsame.states, hsame.offset, hsame.next, hsame.evaluated, hsame.dropped⟩ ?_ ?_
    · rw [hf]
    · rw [hf]

theorem accept_stops (h : Counted ident k e) (hk : e.streamLossOffset / streamLossGrainBytes ≤ k)
    (hblackhole : e.blackhole = none) (hlossy : e.lossy) (c : Clock) (input : List Byte) :
    Stops ident e.streamLossOffset k (min input.length e.limitAvailable) (e.accept c input).2.1 := by
  have hpub := e.refresh_published c
  have hcount := h.same hpub.sameLoss
  obtain ⟨t, handle, ev, hf, -⟩ := hpub.frame
  have hcases := e.accept_cases c input
  generalize e.refreshSyncTerminations c = refreshed at *
  generalize e.accept c input = accepted at *
  obtain ⟨e₁, c₁⟩ := refreshed
  simp only at hcount hf hcases
  have hoff : e₁.streamLossOffset = e.streamLossOffset := by rw [hf]
  have hlim : e₁.limitAvailable = e.limitAvailable := by rw [hf]; rfl
  have hblackhole₁ : e₁.blackhole = none := by rw [hf]; exact hblackhole
  have hlossy₁ : e₁.streamLoss.any Option.isSome = true := by rw [hf]; exact hlossy
  have hidle := hcount.stops
  rw [hoff] at hidle
  cases hcases with
  | idle hnil => rwa [hnil, List.length_nil, Nat.zero_min]
  | refused hne hz =>
    have hspent := refuseAtLimit_spent hz
    obtain ⟨limit, t, handle, request, acts, hf'⟩ := hspent.frame
    rw [← hlim, hz, Nat.min_zero]
    exact hidle.same hspent.sameLoss (by rw [hf']) (by rw [hf'])
  | into =>
    have hstops := acceptWithStreamLoss_stops c₁.now hcount (by rwa [hoff]) input
    rw [hoff, hlim] at hstops
    simpa only [acceptInto, blackholeDiscarding, hblackhole₁, Bool.false_eq_true, if_false, hlossy₁, if_true, hlim]
      using hstops

/-! ## Deciding a chunk early -/

/-- Taking `input` reaches the first byte of a chunk that no fault drops just when
the bytes it keeps before that one have filled the queue. -/
def DecidesEarly (ident : Identity) (e : DirectionEngine) (input : List Byte) : Prop :=
  ∃ chunk, e.streamLossOffset ≤ chunk * streamLossGrainBytes ∧
    chunk * streamLossGrainBytes < min (e.streamLossOffset + min input.length e.limitAvailable) u64Max ∧
    ident.dropChunk e.plan chunk = false ∧
    (sift (ident.dropsAt e.plan) e.streamLossOffset
      (input.take (chunk * streamLossGrainBytes - e.streamLossOffset))).length = e.maxBuffer - e.buffered

/-- The chunk is among those that begin inside the input. -/
theorem decidesEarly_iff (ident : Identity) (e : DirectionEngine) (input : List Byte) :
    (∃ chunk, chunk < e.streamLossOffset + input.length ∧
      e.streamLossOffset ≤ chunk * streamLossGrainBytes ∧
      chunk * streamLossGrainBytes < min (e.streamLossOffset + min input.length e.limitAvailable) u64Max ∧
      ident.dropChunk e.plan chunk = false ∧
      (sift (ident.dropsAt e.plan) e.streamLossOffset
        (input.take (chunk * streamLossGrainBytes - e.streamLossOffset))).length = e.maxBuffer - e.buffered) ↔
      DecidesEarly ident e input := by
  refine exists_congr fun chunk => and_iff_right_of_imp fun h => ?_
  have hlt := h.2.1
  simp only [streamLossGrainBytes] at hlt
  omega

instance (ident : Identity) (e : DirectionEngine) (input : List Byte) : Decidable (DecidesEarly ident e input) :=
  decidable_of_iff _ (decidesEarly_iff ident e input)

/-- The bytes an acceptance took, and the room they left. -/
theorem accept_fills (h : LossAt ident k e) (hblackhole : e.blackhole = none) (hlossy : e.lossy)
    (hfit : e.buffered ≤ e.maxBuffer) (c : Clock) (input : List Byte) :
    let r := e.accept c input
    r.1 ≤ input.length ∧ r.2.1.streamLossOffset = e.streamLossOffset + r.1 ∧ r.2.1.plan = e.plan ∧
      r.2.1.maxBuffer = e.maxBuffer ∧
      r.2.1.buffered = e.buffered + (sift (ident.dropsAt e.plan) e.streamLossOffset (input.take r.1)).length ∧
      r.2.1.buffered ≤ e.maxBuffer := by
  have hacc := accept_accepted h c input
  obtain ⟨t, handle, ev, hf, -⟩ := (e.refresh_published c).frame
  have hdis : e.discardsAt c = false := by
    unfold discardsAt blackholeDiscarding
    generalize e.refreshSyncTerminations c = refreshed at *
    obtain ⟨e₁, c₁⟩ := refreshed
    simp only at hf ⊢
    rw [hf, hblackhole]
  rw [hdis] at hacc
  generalize (e.refreshSyncTerminations c).1 = e₁ at *
  subst hf
  have hbuf := hacc.buffered
  have hkept := hacc.fits
  have hplan := congrArg Setup.plan hacc.setup
  have hoff := hacc.offset hlossy
  simp only [survivors, Bool.false_eq_true, if_false] at hbuf hkept hoff
  refine ⟨hacc.le, hoff, hplan, hacc.maxBuffer, hbuf, ?_⟩
  rcases eq_or_ne (sift (ident.dropsAt e.plan) e.streamLossOffset (input.take (e.accept c input).1)) [] with hnil | hne
  · rw [hbuf, hnil]
    exact hfit
  · exact hkept hne

/-- Where the chunks with an accepted byte are those counted, they are so after an
acceptance exactly if it decides no chunk early. -/
theorem accept_counts_iff (h : Counted ident (chunksOf e.streamLossOffset) e) (hblackhole : e.blackhole = none)
    (hlossy : e.lossy) (hfit : e.buffered ≤ e.maxBuffer) (c : Clock) (input : List Byte) :
    Counted ident (chunksOf (e.accept c input).2.1.streamLossOffset) (e.accept c input).2.1 ↔
      ¬ DecidesEarly ident e input := by
  have hstart : e.streamLossOffset / streamLossGrainBytes ≤ chunksOf e.streamLossOffset :=
    Nat.div_le_div_right (by simp only [streamLossGrainBytes]; omega)
  have hstops := accept_stops h hstart hblackhole hlossy c input
  obtain ⟨hn, hoff, hplan, hmax, hbuf, hroom⟩ := accept_fills h.toLossAt hblackhole hlossy hfit c input
  generalize e.accept c input = accepted at *
  obtain ⟨n, e', c'⟩ := accepted
  simp only at *
  have hdrops : ∀ {chunk m}, e.streamLossOffset + m = chunk * streamLossGrainBytes →
      ident.dropsAt e.plan (e.streamLossOffset + m) = ident.dropChunk e.plan chunk := by
    intro chunk m heq
    rw [Identity.dropsAt, heq, Nat.mul_div_cancel _ (by simp only [streamLossGrainBytes]; omega)]
  -- The bytes kept before the first one of a surviving chunk that was taken leave room for it.
  have hpassed : ∀ {m}, m < n → ident.dropsAt e.plan (e.streamLossOffset + m) = false →
      (sift (ident.dropsAt e.plan) e.streamLossOffset (input.take m)).length ≠ e.maxBuffer - e.buffered := by
    intro m hm hkept
    have hlt := sift_length_lt input hm hn hkept
    omega
  cases hstops with
  | all hend hcount =>
    have hcount' : Counted ident (chunksOf e'.streamLossOffset) e' := by
      split at hcount
      · next heq => rwa [heq]
      · exact hcount
    refine iff_of_true hcount' ?_
    rintro ⟨chunk, hge, hlt, hkept, heq⟩
    obtain ⟨m, hm⟩ := Nat.exists_eq_add_of_le hge
    rw [hm, Nat.add_sub_cancel_left] at heq
    exact hpassed (by omega) ((hdrops hm.symm).trans hkept) heq
  | full hle hlt hfull hkept hcount =>
    rw [hplan] at hkept
    by_cases hstart' : e'.streamLossOffset % streamLossGrainBytes = 0
    · refine iff_of_false ?_ (not_not_intro ?_)
      · intro hcount'
        have heq := hcount.next.symm.trans hcount'.next
        simp only [chunksOf, streamLossGrainBytes] at heq hstart'
        omega
      · have hmul := Nat.div_mul_cancel (Nat.dvd_of_mod_eq_zero hstart')
        refine ⟨e'.streamLossOffset / streamLossGrainBytes, ?_, ?_, hkept, ?_⟩
        · rwa [hmul]
        · rwa [hmul]
        · rw [hmul, hoff, Nat.add_sub_cancel_left]
          omega
    · refine iff_of_true ?_ ?_
      · have heq : chunksOf e'.streamLossOffset = e'.streamLossOffset / streamLossGrainBytes + 1 := by
          simp only [chunksOf, streamLossGrainBytes] at hstart' ⊢
          omega
        rwa [heq]
      · rintro ⟨chunk, hge, hlt', hkept', heq⟩
        obtain ⟨m, hm⟩ := Nat.exists_eq_add_of_le hge
        rw [hm, Nat.add_sub_cancel_left] at heq
        rcases Nat.lt_trichotomy m n with hlow | rfl | hhigh
        · exact hpassed hlow ((hdrops hm.symm).trans hkept') heq
        · exact hstart' (by rw [hoff, ← hm, Nat.mul_mod_left])
        · have hgrow := sift_length_lt input hhigh (by omega) (hoff ▸ hkept)
          omega

end DirectionEngine

namespace EngineRun
open DirectionEngine

/-! ## Runs -/

section
variable {τ : Type}

/-- The counters report the chunks that hold an accepted byte, and the dropped
ones of these. -/
def ChunksReported (ident : Identity) (plan : FaultPlan) (s : EngineRun τ) : Prop :=
  let chunks := (Finset.range s.accepted.length).image (· / streamLossGrainBytes)
  s.engine.evidence.streamLossChunksEvaluated = chunks.card ∧
    s.engine.evidence.streamLossChunksDropped = (chunks.filter fun chunk => ident.dropChunk plan chunk).card

/-- What the call hands in. -/
def Op.input : Op → List Byte
  | .accept input => input
  | .acceptVectored bufs => bufs.flatten
  | _ => []

/-- A run of an engine for this plan and identity, before its first call. -/
def Started (plan : FaultPlan) (ident : Identity) (s : EngineRun τ) : Prop :=
  ∃ handle c₀ engine clock io, newWithArcPlan plan ident handle c₀ = (.ok engine, clock) ∧
    s = { engine, inner := { io }, clock }

theorem chunks_eq (n : Nat) : (Finset.range n).image (· / streamLossGrainBytes) = Finset.range (chunksOf n) := by
  ext chunk
  simp only [Finset.mem_image, Finset.mem_range, chunksOf, streamLossGrainBytes]
  constructor
  · rintro ⟨i, hi, rfl⟩
    omega
  · intro hlt
    exact ⟨chunk * 32768, by omega, by omega⟩

/-- What every run of a plan with active stream loss and no active blackhole keeps. -/
structure Counting (ident : Identity) (plan : FaultPlan) (s : EngineRun τ) : Prop extends Conserved ident plan s where
  unswallowed : Unswallowed s
  lossy : s.engine.lossy = true
  counted : ∃ k, Counted ident k s.engine ∧ s.engine.streamLossOffset / streamLossGrainBytes ≤ k

theorem Counting.offset_eq {ident : Identity} {plan : FaultPlan} {s : EngineRun τ} (h : Counting ident plan s) :
    s.engine.streamLossOffset = s.accepted.length := by
  have hoff := h.offset h.lossy
  rw [hoff, h.unswallowed.accepted, List.length_map]

theorem Counting.reported_iff {ident : Identity} {plan : FaultPlan} {s : EngineRun τ} (h : Counting ident plan s) :
    ChunksReported ident plan s ↔ Counted ident (chunksOf s.engine.streamLossOffset) s.engine := by
  obtain ⟨k, hcount, -⟩ := h.counted
  have hdropped := hcount.dropped
  have hplan := h.samePlan
  rw [h.offset_eq]
  simp only [ChunksReported, chunks_eq, Finset.card_range]
  constructor
  · rintro ⟨hevaluated, -⟩
    obtain rfl := hcount.evaluated.symm.trans hevaluated
    exact hcount
  · intro hcount'
    obtain rfl := hcount.evaluated.symm.trans hcount'.evaluated
    rw [hplan] at hdropped
    exact ⟨hcount.evaluated, hdropped⟩

/-- A vectored call of an engine with stream loss is a call with all of the slices. -/
theorem Counting.acceptVectored_eq {ident : Identity} {plan : FaultPlan} {s : EngineRun τ}
    (h : Counting ident plan s) (bufs : List (List Byte)) :
    s.engine.acceptVectored s.clock bufs = s.engine.accept s.clock bufs.flatten := by
  obtain ⟨k, hl⟩ := h.lossAt
  have hloss := h.lossy
  rw [lossy_iff hl, List.any_eq_true] at hloss
  obtain ⟨fault, hmem, hfault⟩ := hloss
  have hpreserving : ¬ s.engine.isPreservingOnly := by
    intro hall
    have hkind := List.all_eq_true.1 hall fault hmem
    cases hk : fault.kind with
    | streamLoss c => simp [hk] at hkind
    | _ => simp [Identity.loses, hk] at hfault
  unfold acceptVectored
  simp only
  split
  · next hz =>
    have hnil : bufs.flatten = [] := by
      rw [totalLength_eq] at hz
      simp only [clampU64, u64Max] at hz
      exact List.length_eq_zero_iff.1 (by omega)
    rw [hnil]
    rfl
  · rfl

theorem Started.counting {plan : FaultPlan} {ident : Identity} {s : EngineRun τ} (h : Started plan ident s)
    (hloss : ∃ fault ∈ plan.faults, ident.loses fault)
    (hno : ∀ fault ∈ plan.faults, ident.swallows fault = false) : Counting ident plan s := by
  obtain ⟨handle, c₀, engine, clock, io, hnew, rfl⟩ := h
  obtain ⟨-, rfl, rfl⟩ := newWithArcPlan_ok hnew
  have hl := compile_lossAt plan ident handle c₀.now
  refine ⟨compile_conserved plan ident handle c₀.now io c₀.tick, ⟨compile_unswallowed hno handle c₀.now, rfl⟩, ?_, 0,
    ⟨hl, rfl, rfl, rfl⟩, (Nat.zero_div _).le⟩
  rw [lossy_iff hl, List.any_eq_true]
  exact hloss

/-- Nothing has been accepted yet. -/
theorem Started.reported {plan : FaultPlan} {ident : Identity} {s : EngineRun τ} (h : Started plan ident s) :
    ChunksReported ident plan s := by
  obtain ⟨handle, c₀, engine, clock, io, hnew, rfl⟩ := h
  obtain ⟨-, rfl, rfl⟩ := newWithArcPlan_ok hnew
  exact ⟨rfl, rfl⟩

end

section
variable {τ : Type} [AsyncWrite τ] {ident : Identity} {plan : FaultPlan} {s : EngineRun τ}

/-- A call that takes its input, or one that passes bytes on. -/
theorem Counting.step_cases (h : Counting ident plan s) (op : Op) :
    (step s op).engine = (s.engine.accept s.clock op.input).2.1 ∨
      op.input = [] ∧ SameLoss s.engine (step s op).engine := by
  cases op with
  | accept input => exact .inl rfl
  | acceptVectored bufs =>
    left
    simp only [step, book, h.acceptVectored_eq]
    rfl
  | pollFlush =>
    obtain ⟨out, hp, -⟩ := s.engine.pollFlush_passed s.inner s.clock
    exact .inr ⟨rfl, hp.sameLoss⟩
  | pollShutdown =>
    obtain ⟨out, hp, -⟩ := s.engine.pollShutdown_passed s.inner s.clock
    exact .inr ⟨rfl, hp.sameLoss⟩
  | pollDueTermination => exact .inr ⟨rfl, (s.engine.pollDueTermination_passed s.clock).sameLoss⟩

theorem Counting.step (h : Counting ident plan s) (op : Op) : Counting ident plan (EngineRun.step s op) := by
  have hconserved := h.toConserved.step op
  have hunswallowed := h.unswallowed.step h.toConserved op
  obtain ⟨k, hcount, hk⟩ := h.counted
  obtain ⟨k', hl'⟩ := hconserved.lossAt
  have hlossy : (EngineRun.step s op).engine.lossy = true := by
    have hlossy := h.lossy
    rwa [lossy_iff hcount.toLossAt, h.samePlan, ← hconserved.samePlan, ← lossy_iff hl'] at hlossy
  refine ⟨hconserved, hunswallowed, hlossy, ?_⟩
  rcases h.step_cases op with heq | ⟨-, hsame⟩
  · have hstops := accept_stops hcount hk h.unswallowed.blackhole h.lossy s.clock op.input
    rw [← heq] at hstops
    cases hstops with
    | all hend hcount' =>
      refine ⟨_, hcount', ?_⟩
      split
      · next hstay => rwa [hstay]
      · exact Nat.div_le_div_right (by simp only [streamLossGrainBytes]; omega)
    | full hle hlt hfull hkept hcount' => exact ⟨_, hcount', Nat.le_succ _⟩
  · refine ⟨k, hcount.same hsame, ?_⟩
    rwa [hsame.offset]

/-- A step keeps the reports right exactly if it decides no chunk early. -/
theorem Counting.reported_step_iff (h : Counting ident plan s) (hreported : ChunksReported ident plan s) (op : Op) :
    ChunksReported ident plan (EngineRun.step s op) ↔ ¬ DecidesEarly ident s.engine op.input := by
  have hcount := h.reported_iff.1 hreported
  rw [(h.step op).reported_iff]
  rcases h.step_cases op with heq | ⟨hnil, hsame⟩
  · rw [heq]
    exact accept_counts_iff hcount h.unswallowed.blackhole h.lossy (h.low.trans h.high) s.clock op.input
  · refine iff_of_true ?_ ?_
    · rw [hsame.offset]
      exact hcount.same hsame
    · rintro ⟨chunk, hge, hlt, -⟩
      rw [hnil, List.length_nil, Nat.zero_min] at hlt
      omega

/-- The runs that report right all the way are those that decide no chunk early. -/
theorem Started.reported_iff (h : Started plan ident s)
    (hloss : ∃ fault ∈ plan.faults, ident.loses fault)
    (hno : ∀ fault ∈ plan.faults, ident.swallows fault = false) (ops : List Op) :
    (∀ pre, pre <+: ops → ChunksReported ident plan (run EngineRun.step s pre)) ↔
      Along EngineRun.step (fun s op => ¬ DecidesEarly ident s.engine op.input) s ops := by
  apply prefixes_iff_along (J := Counting ident plan)
  · intro s op hc
    exact hc.step op
  · intro s op hreported hc
    exact hc.reported_step_iff hreported op
  · exact h.reported
  · exact h.counting hloss hno

end

/-- After every call the counters report the chunks that hold an accepted byte, and
the dropped ones of these, exactly in the runs in which no acceptance decides a
chunk early. Such runs report alike what they accepted alike. -/
theorem chunk_evidence_iff {τ σ : Type} [AsyncWrite τ] [AsyncWrite σ] {plan : FaultPlan} {ident : Identity}
    {s : EngineRun τ} {s' : EngineRun σ} (h : Started plan ident s) (h' : Started plan ident s')
    (hloss : ∃ fault ∈ plan.faults, ident.loses fault)
    (hno : ∀ fault ∈ plan.faults, ident.swallows fault = false) (ops ops' : List Op) :
    ((∀ pre, pre <+: ops → ChunksReported ident plan (run step s pre)) ↔
      Along step (fun s op => ¬ DecidesEarly ident s.engine op.input) s ops) ∧
    (Along step (fun s op => ¬ DecidesEarly ident s.engine op.input) s ops →
      Along step (fun s op => ¬ DecidesEarly ident s.engine op.input) s' ops' →
      (run step s ops).accepted.map (·.1) = (run step s' ops').accepted.map (·.1) →
      (run step s ops).engine.evidence.streamLossChunksEvaluated =
          (run step s' ops').engine.evidence.streamLossChunksEvaluated ∧
        (run step s ops).engine.evidence.streamLossChunksDropped =
          (run step s' ops').engine.evidence.streamLossChunksDropped) := by
  have hiff := h.reported_iff hloss hno ops
  have hiff' := h'.reported_iff hloss hno ops'
  refine ⟨hiff, fun halong halong' hsame => ?_⟩
  obtain ⟨hevaluated, hdropped⟩ := hiff.2 halong ops List.prefix_rfl
  obtain ⟨hevaluated', hdropped'⟩ := hiff'.2 halong' ops' List.prefix_rfl
  have hlen := congrArg List.length hsame
  rw [List.length_map, List.length_map] at hlen
  rw [hevaluated, hdropped, hevaluated', hdropped', hlen]
  exact ⟨rfl, rfl⟩

theorem chunk_evidence_sample :
    let ops := [Op.accept [1, 2], .pollFlush, .accept [3, 4]]
    let ops' := [Op.accept [1], .accept [2, 3, 4]]
    (∀ pre, pre <+: ops → ChunksReported sampleIdent samplePlan (sampleRun pre)) ∧
      (sampleRun ops).engine.evidence.streamLossChunksEvaluated =
        (sampleRun ops').engine.evidence.streamLossChunksEvaluated := by
  intro ops ops'
  have hstart : Started samplePlan sampleIdent (sampleRun []) := ⟨.new, .still 0, _, _, _, rfl, rfl⟩
  obtain ⟨hiff, hsame⟩ := chunk_evidence_iff hstart hstart (by decide) (by decide) ops ops'
  have halong : Along step (fun s op => ¬ DecidesEarly sampleIdent s.engine op.input) (sampleRun []) ops := by
    decide +kernel
  have halong' : Along step (fun s op => ¬ DecidesEarly sampleIdent s.engine op.input) (sampleRun []) ops' := by
    decide +kernel
  exact ⟨hiff.2 halong, (hsame halong halong' (by decide +kernel)).1⟩

/-! ## One byte too many

Stream loss at one half that spares the first three chunks, and the default queue
of two chunks. -/

def sparedIdent : Identity := ⟨3, "proxy", 1, .upstream⟩

def sparedPlan : FaultPlan := samplePlan.withoutFault "limit"

/-- One call that hands in `n` bytes. -/
def sparedRun (n : Nat) : EngineRun Script :=
  run step { engine := compile sparedPlan sparedIdent .new 0, clock := .still 0, inner := { io := {} } }
    [.accept (List.replicate n 7)]

theorem spared (chunk : Nat) (h : chunk < 3) : sparedIdent.dropChunk sparedPlan chunk = false := by
  have hall : ∀ chunk < 3, sparedIdent.dropChunk sparedPlan chunk = false := by decide +kernel
  exact hall chunk h

/-- Up to two chunks are taken, and a byte behind these counts the third. -/
theorem sparedRun_spec {n : Nat} (hn : n ≤ 3 * streamLossGrainBytes) :
    (sparedRun n).accepted.map (·.1) = List.replicate (min n (2 * streamLossGrainBytes)) 7 ∧
      (sparedRun n).engine.evidence.streamLossChunksEvaluated = min (chunksOf n) 3 := by
  have hcount : Counted sparedIdent 0 (compile sparedPlan sparedIdent .new 0) :=
    ⟨compile_lossAt sparedPlan sparedIdent .new 0, rfl, rfl, rfl⟩
  have hstops := accept_stops hcount (Nat.zero_div _).le rfl (by decide) (.still 0) (List.replicate n 7)
  obtain ⟨hle, hoff, -, hmax, hbuf, hroom⟩ := accept_fills hcount.toLossAt rfl (by decide)
    (Nat.zero_le _) (.still 0) (List.replicate n 7)
  have hkept : ∀ m, m ≤ n → sift (sparedIdent.dropsAt sparedPlan) 0 ((List.replicate n (7 : Byte)).take m) =
      (List.replicate n 7).take m := by
    intro m hm
    refine (sift_const (b := false) fun i hi => ?_).trans (if_neg Bool.false_ne_true)
    rw [List.length_take, List.length_replicate] at hi
    refine spared _ ?_
    simp only [streamLossGrainBytes] at hn ⊢
    omega
  have hplan : (compile sparedPlan sparedIdent .new 0).plan = sparedPlan := rfl
  have hstart : (compile sparedPlan sparedIdent .new 0).streamLossOffset = 0 := rfl
  have hempty : (compile sparedPlan sparedIdent .new 0).buffered = 0 := rfl
  have hqueue : (compile sparedPlan sparedIdent .new 0).maxBuffer = 2 * streamLossGrainBytes := by decide
  have hlimit : (compile sparedPlan sparedIdent .new 0).limitAvailable = u64Max := by decide
  simp only [sparedRun, run_cons, run_nil, step, book, List.nil_append, List.map_map, Function.comp_def, List.map_id']
  generalize compile sparedPlan sparedIdent .new 0 = e at *
  generalize e.accept (.still 0) (List.replicate n 7) = accepted at *
  obtain ⟨m, e', c'⟩ := accepted
  simp only [List.length_replicate] at hle hoff hmax hbuf hroom hstops ⊢
  rw [hplan, hstart, hkept m hle, List.length_take, List.length_replicate] at hbuf
  have hsmall : 3 * streamLossGrainBytes < u64Max := by decide
  cases hstops with
  | all hend hcount' =>
    have hall : m = n := by omega
    have hevaluated := hcount'.evaluated
    refine ⟨?_, ?_⟩
    · rw [List.take_replicate]
      congr 1
      omega
    · rw [hevaluated]
      split
      · simp only [chunksOf, streamLossGrainBytes]
        omega
      · rw [hoff, hstart, hall]
        simp only [chunksOf, streamLossGrainBytes] at *
        omega
  | full hge hlt hfull hspared hcount' =>
    have hevaluated := hcount'.evaluated
    have htwo : m = 2 * streamLossGrainBytes := by omega
    refine ⟨?_, ?_⟩
    · rw [List.take_replicate]
      congr 1
      omega
    · rw [hevaluated, hoff, hstart, htwo]
      simp only [chunksOf, streamLossGrainBytes] at *
      omega

/-- The same two chunks are accepted, but a byte that could not be taken has the
third one counted. -/
theorem chunk_counted_without_bytes :
    let s := sparedRun (2 * streamLossGrainBytes + 1)
    let s' := sparedRun (2 * streamLossGrainBytes)
    sparedPlan.validate = .ok () ∧ s.accepted.map (·.1) = s'.accepted.map (·.1) ∧
      s.engine.evidence.streamLossChunksEvaluated = 3 ∧ s'.engine.evidence.streamLossChunksEvaluated = 2 ∧
      ¬ ChunksReported sparedIdent sparedPlan s := by
  dsimp only
  obtain ⟨haccepted, hevaluated⟩ := @sparedRun_spec (2 * streamLossGrainBytes + 1) (by decide)
  obtain ⟨haccepted', hevaluated'⟩ := @sparedRun_spec (2 * streamLossGrainBytes) (by decide)
  rw [Nat.min_eq_right (Nat.le_succ _)] at haccepted
  rw [Nat.min_self] at haccepted'
  rw [show min (chunksOf (2 * streamLossGrainBytes + 1)) 3 = 3 by decide] at hevaluated
  rw [show min (chunksOf (2 * streamLossGrainBytes)) 3 = 2 by decide] at hevaluated'
  refine ⟨rfl, haccepted.trans haccepted'.symm, hevaluated, hevaluated', ?_⟩
  rintro ⟨hreported, -⟩
  have hlen := congrArg List.length haccepted
  rw [List.length_map, List.length_replicate] at hlen
  rw [hevaluated, chunks_eq, Finset.card_range, hlen] at hreported
  exact absurd hreported (by decide)

end EngineRun

end Eggchaos
