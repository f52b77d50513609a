import Eggchaos.StreamLoss
/-!
# What `accept` does

The three acceptance paths share one description, `Accepted`: a prefix of the
input is taken, its survivors are queued, the counters and the limit move by
what was taken, and a limit that reaches zero requests termination. Which bytes
survive is all that differs: none while a blackhole discards, else those no
stream-loss fault drops.

`accept_accepted` proves it of `accept`; nothing later opens `accept` again.
-/

namespace Eggchaos
open Lib

namespace DirectionEngine

/-! ## Fixed and shared parts -/

/-- What compilation fixes for the life of an engine. -/
structure Setup where
  plan : FaultPlan
  direction : Direction
  maxBuffer : Nat
  slowClose : Option Nat
  blackhole : Option BlackholeState
  disconnect : Option DisconnectState

def setup (e : DirectionEngine) : Setup := ⟨e.plan, e.direction, e.maxBuffer, e.slowClose, e.blackhole, e.disconnect⟩

/-- The handle holds what the engine has recorded. -/
def Synced (e : DirectionEngine) : Prop := e.termHandle.slot = e.termination

/-- The request of a limit that is used up. -/
def exhaustedInfo (e : DirectionEngine) : Option TerminationInfo :=
  match e.remainingLimit with
  | some (0, id) => some (e.gracefulInfo id)
  | _ => none

/-- Whether some stream-loss fault is active. -/
def lossy (e : DirectionEngine) : Bool := e.streamLoss.any Option.isSome

theorem publishCounting_synced {e : DirectionEngine} (h : e.Synced) (info : TerminationInfo) (slot : Fin 7) :
    (e.publishCounting info slot).Synced := by
  obtain ⟨acts, he⟩ := e.publishCounting_eq info slot
  rw [he]
  cases ht : e.termination <;> simp_all [Synced, TerminationHandle.publish]

theorem Published.setup {e e' : DirectionEngine} {infos} (h : Published e infos e') : e'.setup = e.setup := by
  obtain ⟨_, _, _, rfl, -⟩ := h.frame
  rfl

theorem Published.synced {e e' : DirectionEngine} {infos} (h : Published e infos e') (hs : e.Synced) : e'.Synced := by
  rcases h with rfl | ⟨-, info, slot, -, rfl⟩
  · exact hs
  · exact publishCounting_synced hs info slot

theorem Published.lossAt {e e' : DirectionEngine} {infos} (h : Published e infos e') {ident : Identity} {k : Nat}
    (hl : LossAt ident k e) : LossAt ident k e' := by
  obtain ⟨_, _, _, rfl, -⟩ := h.frame
  exact ⟨hl.states, hl.decided, hl.offset⟩

/-- What was recorded stays, and what is new is one of `infos`. -/
theorem Published.termination {e e' : DirectionEngine} {infos} (h : Published e infos e') :
    e'.termination = e.termination ∨ (e.termination = none ∧ ∃ info, infos info ∧ e'.termination = some info) := by
  rcases h with rfl | ⟨hn, info, slot, hi, rfl⟩
  · exact .inl rfl
  · obtain ⟨acts, he⟩ := e.publishCounting_eq info slot
    exact .inr ⟨hn, info, hi, by rw [he, hn]; rfl⟩

/-! ## The limit -/

theorem limitAvailable_of_some {e : DirectionEngine} {r : Nat} {id : FaultId} (h : e.remainingLimit = some (r, id)) :
    e.limitAvailable = r := by
  rw [limitAvailable, h]

theorem exhaustedInfo_eq_none {e : DirectionEngine} (h : e.limitAvailable ≠ 0) : e.exhaustedInfo = none := by
  unfold exhaustedInfo
  split
  · next id hr => exact absurd (limitAvailable_of_some hr) h
  · rfl

theorem exhaustedInfo_of_zero {e : DirectionEngine} {id : FaultId} (h : e.remainingLimit = some (0, id)) :
    e.exhaustedInfo = some (e.gracefulInfo id) := by
  simp only [exhaustedInfo, h]

/-- What a call may do to the limit and the termination: a limit at zero has its
request recorded, unless another one was. -/
structure Spent (e e' : DirectionEngine) (n : Nat) : Prop where
  limit : e'.remainingLimit = e.remainingLimit.map fun p => (p.1 - n, p.2)
  requested : e'.termination = (e.termination <|> e'.exhaustedInfo)
  synced : e.Synced → e'.Synced
  frame : ∃ remainingLimit termination termHandle request activations, e' = { e with
    remainingLimit, termination, termHandle
    evidence := { e.evidence with termination := request, activations } }

theorem Spent.refl {e : DirectionEngine} (h : e.limitAvailable ≠ 0) : Spent e e 0 where
  limit := by simp
  requested := by simp [exhaustedInfo_eq_none h]
  synced h := h
  frame := ⟨_, _, _, _, _, rfl⟩

/-- The request of a limit at zero is published. -/
theorem publishExhausted_spent {e : DirectionEngine} {id : FaultId} (h : e.remainingLimit = some (0, id)) :
    Spent e (e.publishCounting (e.gracefulInfo id) 3) 0 := by
  obtain ⟨acts, he⟩ := e.publishCounting_eq (e.gracefulInfo id) 3
  refine ⟨by rw [he]; simp, ?_, fun hs => publishCounting_synced hs _ _, _, _, _, _, _, he⟩
  have hinfo : (e.publishCounting (e.gracefulInfo id) 3).exhaustedInfo = some (e.gracefulInfo id) := by
    rw [he]
    exact exhaustedInfo_of_zero h
  rw [hinfo, he]
  cases e.termination <;> rfl

/-- Taking accepted bytes off the limit. -/
theorem spendLimit_spent (e : DirectionEngine) (n : Nat) : Spent e (e.spendLimit n) n := by
  unfold spendLimit
  split
  · next h => exact ⟨by simp [h], by simp [exhaustedInfo, h], id, _, _, _, _, _, rfl⟩
  · next r id h =>
    have hmap : e.remainingLimit.map (fun p => (p.1 - n, p.2)) = some (r - n, id) := by rw [h]; rfl
    have hset : ∀ e', Spent { e with remainingLimit := some (r - n, id) } e' 0 → Spent e e' n := by
      intro e' hs
      refine ⟨?_, hs.requested, hs.synced, hs.frame⟩
      rw [hs.limit, hmap]
      rfl
    simp only
    split
    · next hz => exact hset _ (publishExhausted_spent (by rw [hz]))
    · next hz => exact hset _ (.refl (by rw [limitAvailable_of_some rfl]; exact hz))

theorem refuseAtLimit_spent {e : DirectionEngine} (h : e.limitAvailable = 0) : Spent e e.refuseAtLimit 0 := by
  obtain ⟨r, id, hr⟩ : ∃ r id, e.remainingLimit = some (r, id) := by
    cases hr : e.remainingLimit with
    | none => simp [limitAvailable, hr, u64Max] at h
    | some p => exact ⟨p.1, p.2, rfl⟩
  obtain rfl : r = 0 := (limitAvailable_of_some hr).symm.trans h
  unfold refuseAtLimit
  split
  · next id' _ hr' =>
    obtain rfl : id = id' := by rw [hr] at hr'; simp at hr'; exact hr'.2
    exact publishExhausted_spent hr
  · next hno =>
    cases ht : e.termination with
    | none => exact absurd hr (hno _ _ ht)
    | some info => exact ⟨by simp [hr], by simp [ht], fun hs => hs, _, _, _, _, _, rfl⟩

/-! ## One description of the three paths -/

/-- The bytes of accepted `data` that are queued. -/
def survivors (ident : Identity) (e : DirectionEngine) (discards : Bool) (data : List Byte) : List Byte :=
  if discards then [] else sift (ident.dropsAt e.plan) e.streamLossOffset data

theorem survivors_length_le (ident : Identity) (e : DirectionEngine) (discards : Bool) (data : List Byte) :
    (survivors ident e discards data).length ≤ data.length := by
  unfold survivors
  split
  · simp
  · exact sift_length_le _ _ _

/-- `n` bytes of the input were taken, discarding by the blackhole or not. -/
structure Accepted (ident : Identity) (e : DirectionEngine) (discards : Bool) (input : List Byte) (n : Nat)
    (e' : DirectionEngine) : Prop extends Enqueued e (survivors ident e discards (input.take n)) e' where
  le : n ≤ input.length
  setup : e'.setup = e.setup
  limited : n ≤ e.limitAvailable
  limit : e'.remainingLimit = e.remainingLimit.map fun p => (p.1 - n, p.2)
  requested : input ≠ [] → e'.termination = (e.termination <|> e'.exhaustedInfo)
  idle : input = [] → e' = e
  synced : e.Synced → e'.Synced
  accepted : ∀ t, e.evidence.bytesAccepted = clampU64 t → e'.evidence.bytesAccepted = clampU64 (t + n)
  discarded : ∀ t, e.evidence.bytesDiscarded = clampU64 t →
    e'.evidence.bytesDiscarded = clampU64 (t + (n - (survivors ident e discards (input.take n)).length))
  lost : ∀ t, e.evidence.streamLossBytesDiscarded = clampU64 t →
    e'.evidence.streamLossBytesDiscarded =
      clampU64 (t + if discards then 0 else n - (survivors ident e discards (input.take n)).length)
  forwarded : e'.evidence.bytesForwarded = e.evidence.bytesForwarded
  lossAt : ∃ k, LossAt ident k e'
  offset : e.lossy → e'.streamLossOffset = e.streamLossOffset + if discards then 0 else n

/-- The end of every path: from the state in which the survivors are queued, the
counters and the limit move. -/
theorem Accepted.count {ident : Identity} {e e₁ e' : DirectionEngine} {ev : EngineEvidence} {k n : Nat}
    {discards : Bool} {input : List Byte} (hspent : Spent { e₁ with evidence := ev } e' n) (hne : input ≠ [])
    (hle : n ≤ input.length) (hlimited : n ≤ e.limitAvailable)
    (hs : Shaped e (survivors ident e discards (input.take n)) e₁) (hl : LossAt ident k e₁)
    (hoff : e.lossy → e₁.streamLossOffset = e.streamLossOffset + if discards then 0 else n)
    (hacc : ∀ t, e₁.evidence.bytesAccepted = clampU64 t → ev.bytesAccepted = clampU64 (t + n))
    (hdis : ∀ t, e₁.evidence.bytesDiscarded = clampU64 t → ev.bytesDiscarded =
      clampU64 (t + (n - (survivors ident e discards (input.take n)).length)))
    (hlost : ∀ t, e₁.evidence.streamLossBytesDiscarded = clampU64 t → ev.streamLossBytesDiscarded =
      clampU64 (t + if discards then 0 else n - (survivors ident e discards (input.take n)).length))
    (hfw : ev.bytesForwarded = e₁.evidence.bytesForwarded) : Accepted ident e discards input n e' := by
  obtain ⟨⟨hq, hb, hh, hfit, hmax⟩, ⟨r, bw, sc, ev₁, hf, hev⟩⟩ := hs
  obtain ⟨hlim, hreq, hsync, ⟨lim, t, handle, req, acts, rfl⟩⟩ := hspent
  have hev₁ : e₁.evidence = ev₁ := by rw [hf]
  have hsame := congrArg EngineEvidence.bytesAccepted hev
  have hsame' := congrArg EngineEvidence.bytesDiscarded hev
  have hsame'' := congrArg EngineEvidence.streamLossBytesDiscarded hev
  have hsameF := congrArg EngineEvidence.bytesForwarded hev
  simp only [EngineEvidence.sansLoss, EngineEvidence.sansShaping, ← hev₁] at hsame hsame' hsame'' hsameF
  have hterm : e₁.termination = e.termination := by rw [hf]
  have hlimit : e₁.remainingLimit = e.remainingLimit := by rw [hf]
  refine ⟨⟨hq, hb, hh, hfit, hmax⟩, hle, ?_, hlimited, ?_, fun _ => ?_, fun h => absurd h hne, ?_, ?_, ?_, ?_, ?_,
    ⟨k, hl.states, hl.decided, hl.offset⟩, hoff⟩
  · simp only [DirectionEngine.setup]
    rw [hf]
  · rw [hlim, hlimit]
  · rw [hreq, hterm]
  · intro h
    apply hsync
    simp only [Synced] at h ⊢
    rw [hf]
    exact h
  · intro t ht
    exact hacc t (by rw [hsame, ht])
  · intro t ht
    exact hdis t (by rw [hsame', ht])
  · intro t ht
    exact hlost t (by rw [hsame'', ht])
  · simp only [hfw, hsameF]

/-- Nothing was taken, though a path may have drawn or decided something. -/
theorem Accepted.stop {ident : Identity} {e e₁ e' : DirectionEngine} {k : Nat} (discards : Bool) {input : List Byte}
    (hne : input ≠ []) (hs : Shaped e [] e₁) (hl : LossAt ident k e₁)
    (hoff : e₁.streamLossOffset = e.streamLossOffset) (h : Spent e₁ e' 0) :
    Accepted ident e discards input 0 e' := by
  have hnil : survivors ident e discards (input.take 0) = [] := by simp [survivors]
  refine .count h hne (Nat.zero_le _) (Nat.zero_le _) (by rw [hnil]; exact hs) hl (by simp [hoff]) ?_ ?_ ?_ rfl
  · simp
  · simp
  · simp

/-- Whether the fault is an active stream loss. -/
def Identity.loses (ident : Identity) (fault : FaultSpec) : Bool :=
  ident.active fault && fault.kind matches .streamLoss _

/-- Stream loss is on exactly if a stream-loss fault of the plan is active. -/
theorem lossy_iff {ident : Identity} {k : Nat} {e : DirectionEngine} (h : LossAt ident k e) :
    e.lossy = e.plan.faults.any ident.loses := by
  unfold lossy
  have hs := h.states
  generalize e.plan.faults = faults, e.streamLoss = states at hs
  induction hs with
  | nil => rfl
  | @cons fault state faults states hf _ ih =>
    simp only [List.any_cons, ih]
    congr 1
    unfold FaultLossAt at hf
    split at hf
    · next hkind =>
      split at hf
      · next hact =>
        obtain ⟨conn, rfl, -⟩ := hf
        simp [Identity.loses, hkind, hact]
      · next hact => simp [Identity.loses, hf, hact]
    · next hkind =>
      subst hf
      cases hfk : fault.kind with
      | streamLoss c => exact absurd hfk (hkind c)
      | _ => simp [Identity.loses, hfk]

/-- Without stream loss nothing is dropped. -/
theorem dropsAt_of_not_lossy {ident : Identity} {k : Nat} {e : DirectionEngine} (h : LossAt ident k e)
    (hno : e.lossy = false) (n : Nat) : ident.dropsAt e.plan n = false := by
  rw [lossy_iff h, List.any_eq_false] at hno
  simp only [Identity.dropsAt, Identity.dropChunk, List.any_eq_false]
  intro fault hmem
  have hkeeps := hno fault hmem
  unfold Identity.faultDrops
  split
  · next hkind => simp_all [Identity.loses]
  · simp

theorem survivors_of_not_lossy {ident : Identity} {k : Nat} {e : DirectionEngine} (h : LossAt ident k e)
    (hno : e.lossy = false) (data : List Byte) : survivors ident e false data = data :=
  sift_const fun _ _ => dropsAt_of_not_lossy h hno _

theorem Accepted.blackhole {ident : Identity} {e : DirectionEngine} {k n : Nat} {input : List Byte}
    (hl : LossAt ident k e) (hne : input ≠ []) (hle : n ≤ input.length) (hlimited : n ≤ e.limitAvailable) :
    Accepted ident e true input n (e.acceptBlackhole n) := by
  have hnil : survivors ident e true (input.take n) = [] := rfl
  unfold acceptBlackhole
  refine .count (spendLimit_spent _ n) hne hle hlimited (by rw [hnil]; exact .refl e) hl (by simp) ?_ ?_ ?_ rfl
  · intro t ht
    simp [ht, satAdd_clamp]
  · intro t ht
    simp [hnil, ht, satAdd_clamp]
  · intro t ht
    simpa using ht

theorem Accepted.preserving {ident : Identity} {e : DirectionEngine} {k m : Nat} {input : List Byte} (now : Nat)
    (hl : LossAt ident k e) (hno : e.lossy = false) (hne : input ≠ []) (hlim : e.limitAvailable ≠ 0)
    (hle : m ≤ input.length) (hlimited : m ≤ e.limitAvailable) :
    Accepted ident e false input (e.acceptPreserving (input.take m) now).1
      (e.acceptPreserving (input.take m) now).2 := by
  simp only [acceptPreserving]
  obtain ⟨hown, hpush⟩ := pushLoop_pushed now (input.take m).length e (input.take m)
  generalize pushLoop now (input.take m).length e (input.take m) = pushed at *
  obtain ⟨owned, _, _, e₁⟩ := pushed
  simp only at hown hpush ⊢
  rw [List.length_take, Nat.min_eq_left hle] at hown
  rw [List.take_take, Nat.min_eq_left hown] at hpush
  obtain ⟨_, _, _, _, hf, -⟩ := hpush.frame
  have hoff : e₁.streamLossOffset = e.streamLossOffset := by rw [hf]
  split
  · next hz =>
    have hlim₁ : e₁.limitAvailable ≠ 0 := by rw [hf]; exact hlim
    rw [hz, List.take_zero] at hpush
    exact .stop false hne hpush.shaped (hl.of_pushed hpush) hoff (.refl hlim₁)
  · have hkept := survivors_of_not_lossy hl hno (input.take owned)
    have hlen : (input.take owned).length = owned := by simp; omega
    refine .count (spendLimit_spent _ owned) hne (by omega) (by omega) (by rw [hkept]; exact hpush.shaped)
      (hl.of_pushed hpush) (by simp [hno]) ?_ ?_ ?_ rfl
    · intro t ht
      simp [ht, satAdd_clamp]
    · intro t ht
      simp [hkept, ht, hlen]
    · intro t ht
      simp [hkept, ht, hlen]

theorem Accepted.streamLoss {ident : Identity} {e : DirectionEngine} {k : Nat} {input : List Byte} (now : Nat)
    (hl : LossAt ident k e) (hne : input ≠ []) (hlim : e.limitAvailable ≠ 0) :
    Accepted ident e false input (e.acceptWithStreamLoss input e.limitAvailable now).1
      (e.acceptWithStreamLoss input e.limitAvailable now).2 := by
  simp only [acceptWithStreamLoss]
  obtain ⟨n, hn⟩ := classifyLoop_spec now (min input.length e.limitAvailable) hl
    (input.take (min input.length e.limitAvailable)) {}
  generalize classifyLoop now _ e (input.take (min input.length e.limitAvailable)) {} = done at *
  obtain ⟨done, e₁⟩ := done
  obtain ⟨hle, hoff, hdis, ⟨k', hl'⟩, hs⟩ := hn
  simp only [List.length_take, Nat.zero_add] at hle hoff hdis hs ⊢
  rw [List.take_take, Nat.min_eq_left (by omega)] at hs hdis
  have hlen : (input.take n).length = n := by simp; omega
  split
  · next hz =>
    rw [hoff] at hz
    subst hz
    have hlim₁ : e₁.limitAvailable ≠ 0 := by
      obtain ⟨_, _, _, _, hf, -⟩ := hs.frame
      rw [hf]; exact hlim
    rw [List.take_zero] at hs
    exact .stop false hne hs.toShaped hl' hs.offset (.refl hlim₁)
  · rw [hoff]
    have hdone : done.discarded = clampU64 (n - (survivors ident e false (input.take n)).length) := by
      simpa [survivors] using hdis 0 rfl
    refine .count (spendLimit_spent _ n) hne (by omega) (by omega) hs.toShaped hl'
      (fun _ => by rw [hs.offset, hlen]; simp) ?_ ?_ ?_ rfl
    · intro t ht
      simp [ht, satAdd_clamp]
    · intro t ht
      simp only [ht, hdone]
      exact satAdd_clamps _ _
    · intro t ht
      simp only [ht, hdone]
      exact satAdd_clamps _ _

/-- Whether the blackhole discards what a call made now hands in. -/
def discardsAt (e : DirectionEngine) (c : Clock) : Bool :=
  let (e, c) := e.refreshSyncTerminations c
  (e.blackholeDiscarding c.tick).1

theorem acceptInto_accepted {ident : Identity} {k : Nat} {e : DirectionEngine} (h : LossAt ident k e) (c : Clock)
    {input : List Byte} (now : Nat) (hne : input ≠ []) (hlim : e.limitAvailable ≠ 0) :
    Accepted ident e (e.blackholeDiscarding c).1 input (e.acceptInto c input now).1
      (e.acceptInto c input now).2.1 := by
  have hpos : 0 < input.length := List.length_pos_iff.2 hne
  unfold acceptInto
  generalize e.blackholeDiscarding c = discards
  obtain ⟨discards, c'⟩ := discards
  cases discards
  · simp only [Bool.false_eq_true, if_false]
    split
    · exact .streamLoss now h hne hlim
    · next hno =>
      split
      · exact .stop false hne (.refl e) h rfl (.refl hlim)
      · exact .preserving now h (by simpa [lossy] using hno) hne hlim (by omega) (by omega)
  · simp only [if_true]
    rw [if_neg (by omega)]
    exact .blackhole h hne (by omega) (by omega)

/-- `accept`, from the state the termination refresh leaves. -/
theorem accept_accepted {ident : Identity} {k : Nat} {e : DirectionEngine} (h : LossAt ident k e) (c : Clock)
    (input : List Byte) :
    Accepted ident (e.refreshSyncTerminations c).1 (e.discardsAt c) input (e.accept c input).1
      (e.accept c input).2.1 := by
  have hl := (e.refresh_published c).lossAt h
  have hcases := e.accept_cases c input
  unfold discardsAt
  generalize e.refreshSyncTerminations c = refreshed at *
  generalize e.accept c input = accepted at *
  obtain ⟨e₁, c₁⟩ := refreshed
  simp only at hl hcases ⊢
  cases hcases with
  | idle hnil =>
    subst hnil
    refine ⟨?_, le_rfl, rfl, Nat.zero_le _, by simp, fun h => absurd rfl h, fun _ => rfl, id, by simp, ?_, ?_, rfl,
      ⟨k, hl⟩, by simp⟩
    · have hnone : survivors ident e₁ (e₁.blackholeDiscarding c₁.tick).1 ([].take 0) = [] := by simp [survivors]
      rw [hnone]
      exact .of_eq rfl rfl rfl rfl
    · simp
    · simp
  | refused hne hlim => exact .stop _ hne (.refl e₁) hl rfl (refuseAtLimit_spent hlim)
  | into hne hlim => exact acceptInto_accepted hl c₁.tick c₁.now hne hlim

/-! ## When nothing is taken -/

/-- The queue has no room, and stream loss does not make the next byte disappear.
With stream loss there is no room either once the `u64` offset is used up. -/
def Full (e : DirectionEngine) : Prop :=
  if e.lossy then
    e.streamLossOffset = u64Max ∨ e.maxBuffer ≤ e.buffered ∧
      (decideFaults e.plan.faults e.streamLoss (e.streamLossOffset / streamLossGrainBytes)).1 = false
  else e.maxBuffer ≤ e.buffered

instance (e : DirectionEngine) : Decidable e.Full := inferInstanceAs (Decidable (ite _ _ _))

/-- An engine that takes no byte of any input: its limit is used up, or it is
full and no blackhole discards. -/
def RefusesInput (e : DirectionEngine) (c : Clock) : Prop := e.limitAvailable = 0 ∨ e.discardsAt c = false ∧ e.Full

instance (e : DirectionEngine) (c : Clock) : Decidable (e.RefusesInput c) :=
  inferInstanceAs (Decidable (_ ∨ _ ∧ _))

/-- The preserving path owns all the data that fits. -/
theorem acceptPreserving_fst (e : DirectionEngine) (data : List Byte) (now : Nat)
    (hfit : e.buffered + data.length ≤ e.maxBuffer) : (e.acceptPreserving data now).1 = data.length := by
  have hown := pushLoop_owns now (le_refl data.length) hfit
  simp only [acceptPreserving, hown]
  split
  · next hz => exact hz.symm
  · rfl

theorem chunkEnd_eq_self {o : Nat} (ho : o ≤ u64Max) :
    chunkEnd (o / streamLossGrainBytes) - o = 0 ↔ o = u64Max := by
  have hend : o < chunkEnd (o / streamLossGrainBytes) ∨ (chunkEnd (o / streamLossGrainBytes) = u64Max) := by
    unfold chunkEnd
    split
    · left
      simp only [streamLossGrainBytes]
      omega
    · exact .inr rfl
  have hle : chunkEnd (o / streamLossGrainBytes) ≤ u64Max := by
    unfold chunkEnd
    split
    · next h => exact h.2
    · exact le_rfl
  omega

theorem decideStreamLossChunk_fst (e : DirectionEngine) (chunk : Nat) :
    (e.decideStreamLossChunk chunk).1 = (decideFaults e.plan.faults e.streamLoss chunk).1 := by
  simp only [decideStreamLossChunk]
  split
  · rfl
  · rfl

/-- The loop only adds to what it has accepted. -/
theorem classifyLoop_offset_le (now fuel : Nat) (e : DirectionEngine) (rest : List Byte) (acc : Classified) :
    acc.offset ≤ (classifyLoop now fuel e rest acc).1.offset := by
  induction fuel generalizing e rest acc with
  | zero => exact le_rfl
  | succ fuel ih =>
    simp only [classifyLoop]
    split
    · exact le_rfl
    split
    · exact le_rfl
    split
    · refine Nat.le_trans ?_ (ih _ _ _)
      exact Nat.le_add_right acc.offset _
    split
    · exact le_rfl
    split
    · exact Nat.le_add_right acc.offset _
    · refine Nat.le_trans ?_ (ih _ _ _)
      exact Nat.le_add_right acc.offset _

theorem classifyLoop_offset_eq_zero {ident : Identity} {k : Nat} {e : DirectionEngine} (hl : LossAt ident k e)
    {rest : List Byte} (hne : rest ≠ []) (now fuel : Nat) :
    (classifyLoop now (fuel + 1) e rest {}).1.offset = 0 ↔
      e.streamLossOffset = u64Max ∨ e.maxBuffer ≤ e.buffered ∧
        (decideFaults e.plan.faults e.streamLoss (e.streamLossOffset / streamLossGrainBytes)).1 = false := by
  rw [← decideStreamLossChunk_fst]
  have hpos : 0 < rest.length := List.length_pos_iff.2 hne
  have hend := chunkEnd_eq_self hl.offset
  simp only [classifyLoop]
  rw [if_neg (by simpa using hne)]
  generalize hrun : min (chunkEnd (e.streamLossOffset / streamLossGrainBytes) - e.streamLossOffset) rest.length = run
  split
  · next hz => simp [hend.1 (by omega)]
  next hz =>
  have hoff : e.streamLossOffset ≠ u64Max := fun h => hz (by have := hend.2 h; omega)
  have hsift := decideStreamLossChunk_sifted hl
  simp only [hoff, false_or]
  generalize e.decideStreamLossChunk (e.streamLossOffset / streamLossGrainBytes) = decided at *
  obtain ⟨drop, e₁⟩ := decided
  have hbuf : e₁.buffered = e.buffered := by simpa using hsift.buffered
  have hmax : e₁.maxBuffer = e.maxBuffer := hsift.maxBuffer
  simp only
  cases drop with
  | true =>
    -- A dropped range is accepted whatever the queue holds.
    have hle := classifyLoop_offset_le now fuel { e₁ with
      streamLossOffset := satAdd e₁.streamLossOffset run
      evidence := { e₁.evidence with segments := satAdd e₁.evidence.segments 1 } } (rest.drop run)
      { offset := 0 + run, discarded := satAdd 0 run }
    simp only [if_true, Bool.true_eq_false, and_false, iff_false]
    simp only at hle
    omega
  | false =>
    simp only [Bool.false_eq_true, if_false, and_true]
    split
    · next hcap =>
      simp only [true_iff]
      omega
    · next hcap =>
      -- What fits of the stretch is owned whole, and the loop goes on behind it.
      have hown : (e₁.pushPreserveRun (rest.take (min run (e₁.maxBuffer - e₁.buffered))) now).1 =
          min run (e₁.maxBuffer - e₁.buffered) := by
        rw [pushPreserveRun, pushLoop_owns now le_rfl (by rw [List.length_take]; omega), List.length_take]
        omega
      generalize e₁.pushPreserveRun (rest.take (min run (e₁.maxBuffer - e₁.buffered))) now = pushed at *
      obtain ⟨owned, latency, slice, e₂⟩ := pushed
      simp only at hown ⊢
      rw [if_neg (by omega)]
      have hle := classifyLoop_offset_le now fuel { e₂ with streamLossOffset := satAdd e₂.streamLossOffset owned }
        (rest.drop owned)
        { offset := 0 + owned, preserved := 0 + owned, latency := false || latency, slice := false || slice }
      simp only at hle
      omega

theorem acceptInto_eq_zero_iff {ident : Identity} {k : Nat} {e : DirectionEngine} (h : LossAt ident k e) (c : Clock)
    {input : List Byte} (now : Nat) (hne : input ≠ []) (hlim : e.limitAvailable ≠ 0) :
    (e.acceptInto c input now).1 = 0 ↔ (e.blackholeDiscarding c).1 = false ∧ e.Full := by
  have hpos : 0 < input.length := List.length_pos_iff.2 hne
  unfold acceptInto
  have hcap : min input.length e.limitAvailable ≠ 0 := by omega
  have htake : ∀ m, m ≠ 0 → input.take m ≠ [] := by
    rintro m hm hnil
    rcases List.take_eq_nil_iff.1 hnil with h | h
    · exact hm h
    · exact hne h
  generalize e.blackholeDiscarding c = discards
  obtain ⟨discards, c'⟩ := discards
  cases discards with
  | true => simp [hcap]
  | false =>
    simp only [Bool.false_eq_true, if_false, true_and]
    split
    · next hloss =>
      have hfull : e.Full ↔ _ := iff_of_eq (if_pos hloss)
      simp only [acceptWithStreamLoss]
      obtain ⟨fuel, hfuel⟩ := Nat.exists_eq_succ_of_ne_zero hcap
      have hzero := classifyLoop_offset_eq_zero h (htake _ hcap) now fuel
      rw [← Nat.succ_eq_add_one, ← hfuel] at hzero
      rw [hfull, ← hzero]
      split
      · next hz => simp [hz]
      · next hz => simp [hz]
    · next hloss =>
      have hfull : e.Full ↔ _ := iff_of_eq (if_neg hloss)
      rw [hfull]
      split
      · next hz =>
        simp only [true_iff]
        omega
      · next hz =>
        have hown := e.acceptPreserving_fst
          (input.take (min (min input.length e.limitAvailable) (e.maxBuffer - e.buffered))) now
          (by rw [List.length_take]; omega)
        rw [List.length_take] at hown
        constructor
        · intro h0
          omega
        · intro hfull
          omega

/-- `accept` takes nothing of a non-empty input exactly if the engine refuses. -/
theorem accept_eq_zero_iff {ident : Identity} {k : Nat} {e : DirectionEngine} (h : LossAt ident k e) (c : Clock)
    {input : List Byte} (hne : input ≠ []) : (e.accept c input).1 = 0 ↔ e.RefusesInput c := by
  have hl := (e.refresh_published c).lossAt h
  obtain ⟨t, handle, ev, hf, -⟩ := (e.refresh_published c).frame
  have hcases := e.accept_cases c input
  unfold RefusesInput discardsAt
  generalize e.refreshSyncTerminations c = refreshed at *
  generalize e.accept c input = accepted at *
  obtain ⟨e₁, c₁⟩ := refreshed
  simp only at hl hf hcases ⊢
  have hlim : e₁.limitAvailable = e.limitAvailable := by rw [hf]; rfl
  cases hcases with
  | idle hnil => exact absurd hnil hne
  | refused _ hz => simp [← hlim, hz]
  | into _ hz =>
    rw [acceptInto_eq_zero_iff hl c₁.tick c₁.now hne hz, ← hlim]
    simp only [hz, false_or]
    have hfull : e₁.Full ↔ e.Full := by rw [hf]; rfl
    rw [hfull]

/-! ## Vectored input -/

theorem joinPrefix_eq (bufs : List (List Byte)) (n : Nat) : joinPrefix bufs n = bufs.flatten.take n := by
  induction bufs generalizing n with
  | nil => simp [joinPrefix]
  | cons buf bufs ih =>
    simp only [joinPrefix, ih, List.flatten_cons, List.take_append]
    split
    · next h => simp [h]
    · rcases Nat.le_total buf.length n with h | h
      · rw [Nat.min_eq_left h, List.take_of_length_le h, List.take_of_length_le le_rfl]
      · rw [Nat.min_eq_right h, Nat.sub_self, Nat.sub_eq_zero_of_le h]

theorem totalLength_eq (bufs : List (List Byte)) : totalLength bufs = clampU64 bufs.flatten.length := by
  have hfold : ∀ t, bufs.foldl (fun n buf => satAdd n buf.length) (clampU64 t) =
      clampU64 (t + bufs.flatten.length) := by
    induction bufs with
    | nil => simp
    | cons buf bufs ih =>
      intro t
      rw [List.foldl_cons, satAdd_clamp, ih, List.flatten_cons, List.length_append, Nat.add_assoc]
  rw [← Nat.zero_add bufs.flatten.length, ← hfold]
  rfl

/-- A vectored call is a call with some prefix of the concatenation. -/
theorem acceptVectored_eq (e : DirectionEngine) (c : Clock) (bufs : List (List Byte)) :
    ∃ m, e.acceptVectored c bufs = e.accept c (bufs.flatten.take m) := by
  unfold acceptVectored
  simp only
  split
  · exact ⟨0, by simp [accept]⟩
  · split
    · exact ⟨bufs.flatten.length, by rw [List.take_length]⟩
    · split
      · exact ⟨0, by simp⟩
      · exact ⟨_, by rw [joinPrefix_eq]⟩

end DirectionEngine

end Eggchaos
