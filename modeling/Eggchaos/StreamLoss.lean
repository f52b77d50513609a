import Eggchaos.EngineLemmas
import Eggchaos.Lib.Draws
/-!
# Stream-loss decisions

What the lazy, cached decisions of `decide_stream_loss_chunk` amount to: a
fault's decisions are one sequence of draws (`faultDrops`), fixed by the
connection's identity, and `dropChunk` is their union over the active faults.
`LossAt ident k e` says that the engine's caches hold the first `k` of each.

`classifyLoop` then queues exactly the bytes at positions that no fault drops,
wherever the queue, the limit or the input cut it short.
-/

namespace Eggchaos
open Lib

/-- One decision: draw at the rate the last outcome asks for, and remember it. -/
def StreamLossConfig.drawChunk (config : StreamLossConfig) (s : DeterministicRng × Bool) :
    Bool × (DeterministicRng × Bool) :=
  let (drop, rng) := s.1.bernoulli (config.dropRate s.2)
  (drop, (rng, drop))

namespace DirectionEngine.Identity

/-- The fault's own decision on a chunk. -/
def faultDrops (ident : Identity) (fault : FaultSpec) (chunk : Nat) : Bool :=
  match fault.kind with
  | .streamLoss config => ident.active fault && outcome config.drawChunk (ident.lossRng fault, false) chunk
  | _ => false

/-- Whether some active fault of the plan drops the chunk. -/
def dropChunk (ident : Identity) (plan : FaultPlan) (chunk : Nat) : Bool :=
  plan.faults.any fun fault => ident.faultDrops fault chunk

/-- Whether the byte at absolute offset `n` is dropped. -/
def dropsAt (ident : Identity) (plan : FaultPlan) (n : Nat) : Bool := ident.dropChunk plan (n / streamLossGrainBytes)

end DirectionEngine.Identity

/-- The evidence but for the counters that shaping and deciding chunks move. -/
def EngineEvidence.sansLoss (ev : EngineEvidence) : EngineEvidence :=
  { ev.sansShaping with streamLossChunksEvaluated := 0, streamLossChunksDropped := 0 }

/-! ## One fault -/

namespace StreamLossConnState

/-- The cache holds the first `k` decisions of the sequence that starts at `s`. -/
def At (config : StreamLossConfig) (s : DeterministicRng × Bool) (k : Nat) (conn : StreamLossConnState) : Prop :=
  (conn.rng, conn.prevDropped) = stateAt config.drawChunk s k ∧
    conn.decided = match k with
      | 0 => none
      | k + 1 => some (k, outcome config.drawChunk s k)

theorem draw_succ {config : StreamLossConfig} {s : DeterministicRng × Bool} {k : Nat} {conn : StreamLossConnState}
    (h : (conn.rng, conn.prevDropped) = stateAt config.drawChunk s k) (n : Nat) (drop : Bool) :
    draw config (n + 1) drop conn = draw config n (outcome config.drawChunk s k) { conn with
      rng := (stateAt config.drawChunk s (k + 1)).1
      prevDropped := (stateAt config.drawChunk s (k + 1)).2 } := by
  simp only [draw, outcome, stateAt, ← h, StreamLossConfig.drawChunk]

/-- Drawing `n + 1` further chunks ends with the decision on the last of them. -/
theorem draw_spec {config : StreamLossConfig} {s : DeterministicRng × Bool} {k : Nat} {conn : StreamLossConnState}
    (h : (conn.rng, conn.prevDropped) = stateAt config.drawChunk s k) (n : Nat) (drop : Bool) :
    draw config (n + 1) drop conn = (outcome config.drawChunk s (k + n), { conn with
      rng := (stateAt config.drawChunk s (k + n + 1)).1
      prevDropped := (stateAt config.drawChunk s (k + n + 1)).2 }) := by
  induction n generalizing k conn drop with
  | zero =>
    rw [draw_succ h]
    rfl
  | succ n ih =>
    rw [draw_succ h, ih (k := k + 1) rfl, show k + 1 + n = k + (n + 1) by omega]

/-- Deciding the newest decided chunk or a later one gives the sequence's own
decision, and the cache then ends there. -/
theorem decide_spec {config : StreamLossConfig} {s : DeterministicRng × Bool} {k chunk : Nat}
    {conn : StreamLossConnState} (h : At config s k conn) (hk : k ≤ chunk + 1) (hmax : chunk < u64Max) :
    (decide config conn chunk).1 = outcome config.drawChunk s chunk ∧
      At config s (chunk + 1) (decide config conn chunk).2 := by
  obtain ⟨hs, hd⟩ := h
  unfold decide
  cases k with
  | zero =>
    simp only at hd
    simp only [hd, draw_spec hs, Nat.zero_add]
    exact ⟨trivial, rfl, rfl⟩
  | succ k =>
    simp only at hd
    simp only [hd]
    split
    · next heq =>
      subst heq
      exact ⟨rfl, hs, hd⟩
    · next hne =>
      -- A later chunk: the draws go on behind the cached one.
      have hstart : satAdd k 1 = k + 1 := by simp only [satAdd]; exact clampU64_of_le (by omega)
      obtain ⟨n, rfl⟩ : ∃ n, chunk = k + 1 + n := ⟨chunk - (k + 1), by omega⟩
      rw [hstart, show k + 1 + n + 1 - (k + 1) = n + 1 by omega, draw_spec hs]
      exact ⟨rfl, rfl, rfl⟩

end StreamLossConnState

/-! ## All faults of a plan -/

namespace DirectionEngine

/-- The cache of one fault: `k` decisions if it is an active stream-loss fault,
and none otherwise. -/
def FaultLossAt (ident : Identity) (k : Nat) (fault : FaultSpec) (state : Option StreamLossConnState) : Prop :=
  match fault.kind with
  | .streamLoss config =>
    if ident.active fault then
      ∃ conn, state = some conn ∧ StreamLossConnState.At config (ident.lossRng fault, false) k conn
    else state = none
  | _ => state = none

theorem decideFaults_spec {ident : Identity} {k chunk : Nat} (hk : k ≤ chunk + 1) (hmax : chunk < u64Max)
    {faults : List FaultSpec} {states : List (Option StreamLossConnState)}
    (h : List.Forall₂ (FaultLossAt ident k) faults states) :
    (decideFaults faults states chunk).1 = faults.any (ident.faultDrops · chunk) ∧
      List.Forall₂ (FaultLossAt ident (chunk + 1)) faults (decideFaults faults states chunk).2 := by
  induction h with
  | nil => simp [decideFaults]
  | @cons fault state faults states hf _ ih =>
    obtain ⟨ihdrop, ihstates⟩ := ih
    simp only [FaultLossAt] at hf
    simp only [decideFaults, List.any_cons]
    cases hkind : fault.kind with
    | streamLoss config =>
      simp only [hkind] at hf
      by_cases hact : ident.active fault
      · simp only [hact, if_true] at hf
        obtain ⟨conn, rfl, hat⟩ := hf
        obtain ⟨hd, hat'⟩ := StreamLossConnState.decide_spec hat hk hmax
        refine ⟨?_, .cons ?_ ihstates⟩
        · simp [ihdrop, hd, Identity.faultDrops, hkind, hact]
        · simpa [FaultLossAt, hkind, hact] using hat'
      · simp only [hact, if_neg, Bool.false_eq_true, not_false_eq_true] at hf
        subst hf
        refine ⟨?_, .cons ?_ ihstates⟩
        · simp [ihdrop, Identity.faultDrops, hkind, hact]
        · simp [FaultLossAt, hkind, hact]
    | _ =>
      simp only [hkind] at hf
      subst hf
      refine ⟨?_, .cons ?_ ihstates⟩
      · simp [ihdrop, Identity.faultDrops, hkind]
      · simp [FaultLossAt, hkind]

/-- The engine has decided the first `k` chunks, and the next byte belongs to
the last of these or to the chunk after them. -/
structure LossAt (ident : Identity) (k : Nat) (e : DirectionEngine) : Prop where
  states : List.Forall₂ (FaultLossAt ident k) e.plan.faults e.streamLoss
  decided : k ≤ e.streamLossOffset / streamLossGrainBytes + 1
  offset : e.streamLossOffset ≤ u64Max

theorem decideStreamLossChunk_spec {ident : Identity} {k : Nat} {e : DirectionEngine} (h : LossAt ident k e) :
    let r := e.decideStreamLossChunk (e.streamLossOffset / streamLossGrainBytes)
    r.1 = ident.dropsAt e.plan e.streamLossOffset ∧
      LossAt ident (e.streamLossOffset / streamLossGrainBytes + 1) r.2 ∧
      ∃ streamLoss streamLossEvaluated evidence, r.2 = { e with streamLoss, streamLossEvaluated, evidence } ∧
        evidence.sansLoss = e.evidence.sansLoss := by
  have hmax : e.streamLossOffset / streamLossGrainBytes < u64Max := by
    have := h.offset
    simp only [streamLossGrainBytes, u64Max] at *
    omega
  obtain ⟨hdrop, hstates⟩ := decideFaults_spec h.decided hmax h.states
  simp only [decideStreamLossChunk]
  generalize decideFaults e.plan.faults e.streamLoss (e.streamLossOffset / streamLossGrainBytes) = decided at *
  split
  · exact ⟨hdrop, ⟨hstates, le_refl _, h.offset⟩, _, _, _, rfl, rfl⟩
  · exact ⟨hdrop, ⟨hstates, le_refl _, h.offset⟩, _, _, _, rfl, rfl⟩

/-! ## Classifying a stretch of input -/

/-- `kept` is queued, and only the loss state and what queueing moves has
changed. -/
structure Shaped (e : DirectionEngine) (kept : List Byte) (e' : DirectionEngine) : Prop extends
    Enqueued e kept e' where
  frame : ∃ rngs bandwidth sliceCursor evidence,
    e' = { e with queue := e'.queue, buffered := e'.buffered, highWater := e'.highWater,
                  rngs, bandwidth, sliceCursor, evidence,
                  streamLoss := e'.streamLoss, streamLossOffset := e'.streamLossOffset,
                  streamLossEvaluated := e'.streamLossEvaluated } ∧
      evidence.sansLoss = e.evidence.sansLoss

theorem Shaped.refl (e : DirectionEngine) : Shaped e [] e := ⟨.of_eq rfl rfl rfl rfl, ⟨_, _, _, _, rfl, rfl⟩⟩

theorem Shaped.trans {e e₁ e₂ : DirectionEngine} {d d' : List Byte} (h : Shaped e d e₁) (h' : Shaped e₁ d' e₂) :
    Shaped e (d ++ d') e₂ := by
  obtain ⟨hq, ⟨r, bw, sc, ev, hf, hev⟩⟩ := h
  obtain ⟨hq', ⟨r', bw', sc', ev', hf', hev'⟩⟩ := h'
  refine ⟨hq.trans hq', ⟨r', bw', sc', ev', ?_, ?_⟩⟩
  · rw [hf'.trans (by rw [hf])]
  · rw [hev', ← hev, hf]

theorem Pushed.shaped {e e' : DirectionEngine} {d : List Byte} (h : Pushed e d e') : Shaped e d e' := by
  obtain ⟨hq, ⟨r, bw, sc, ev, hf, hev⟩⟩ := h
  exact ⟨hq, r, bw, sc, ev, by rw [hf], by simp only [EngineEvidence.sansLoss, hev]⟩

/-- `data` has passed the classification: what no fault drops is queued. -/
structure Sifted (ident : Identity) (e : DirectionEngine) (data : List Byte) (e' : DirectionEngine) : Prop extends
    Shaped e (sift (ident.dropsAt e.plan) e.streamLossOffset data) e' where
  offset : e'.streamLossOffset = e.streamLossOffset + data.length

theorem Sifted.refl (ident : Identity) (e : DirectionEngine) : Sifted ident e [] e := ⟨.refl e, by simp⟩

theorem Sifted.plan {ident : Identity} {e e' : DirectionEngine} {d : List Byte} (h : Sifted ident e d e') :
    e'.plan = e.plan := by
  obtain ⟨_, _, _, _, hf, -⟩ := h.frame
  rw [hf]

theorem Sifted.trans {ident : Identity} {e e₁ e₂ : DirectionEngine} {d d' : List Byte} (h : Sifted ident e d e₁)
    (h' : Sifted ident e₁ d' e₂) : Sifted ident e (d ++ d') e₂ := by
  have hs := h.toShaped.trans h'.toShaped
  rw [h.plan, h.offset, ← sift_append] at hs
  exact ⟨hs, by rw [h'.offset, h.offset, List.length_append]; omega⟩

/-- The stretch up to the end of the current chunk stays inside the chunk and
inside the counter. -/
theorem chunkEnd_spec {o run : Nat} (ho : o ≤ u64Max) (hrun : run ≤ chunkEnd (o / streamLossGrainBytes) - o) :
    o + run ≤ u64Max ∧ ∀ i, i < run → (o + i) / streamLossGrainBytes = o / streamLossGrainBytes := by
  have hend : chunkEnd (o / streamLossGrainBytes) ≤ u64Max ∧
      chunkEnd (o / streamLossGrainBytes) ≤ (o / streamLossGrainBytes + 1) * streamLossGrainBytes := by
    unfold chunkEnd
    split
    · next h => exact ⟨h.2, le_refl _⟩
    · next h =>
      simp only [streamLossGrainBytes, u64Max] at *
      exact ⟨by omega, by omega⟩
  generalize chunkEnd (o / streamLossGrainBytes) = last at *
  simp only [streamLossGrainBytes, u64Max] at *
  exact ⟨by omega, fun i hi => by omega⟩

/-- A stretch inside one chunk is dropped or kept as a whole. -/
theorem sift_chunk (ident : Identity) (plan : FaultPlan) {o run : Nat} {data : List Byte} (ho : o ≤ u64Max)
    (hrun : run ≤ chunkEnd (o / streamLossGrainBytes) - o) (hd : data.length ≤ run) :
    sift (ident.dropsAt plan) o data = if ident.dropsAt plan o then [] else data := by
  apply sift_const
  intro i hi
  rw [Identity.dropsAt, (chunkEnd_spec ho hrun).2 i (by omega), Identity.dropsAt]

/-- What the classification loop has done when it stops: it has sifted a prefix
of the input and counted it. -/
structure ClassifiedTo (ident : Identity) (e : DirectionEngine) (rest : List Byte) (acc : Classified)
    (r : Classified × DirectionEngine) (n : Nat) : Prop where
  le : n ≤ rest.length
  offset : r.1.offset = acc.offset + n
  discarded : ∀ t, acc.discarded = clampU64 t → r.1.discarded =
    clampU64 (t + (n - (sift (ident.dropsAt e.plan) e.streamLossOffset (rest.take n)).length))
  lossAt : ∃ k, LossAt ident k r.2
  sifted : Sifted ident e (rest.take n) r.2

theorem ClassifiedTo.stop {ident : Identity} {k : Nat} {e e' : DirectionEngine} {rest : List Byte} {acc : Classified}
    (hl : LossAt ident k e') (h : Sifted ident e [] e') : ClassifiedTo ident e rest acc (acc, e') 0 where
  le := Nat.zero_le _
  offset := rfl
  discarded t ht := by simpa using ht
  lossAt := ⟨k, hl⟩
  sifted := by simpa using h

/-- Going on after `m` bytes of which `d` were discarded. -/
theorem ClassifiedTo.next {ident : Identity} {e e₁ : DirectionEngine} {rest : List Byte} {acc acc₁ : Classified}
    {r : Classified × DirectionEngine} {m n : Nat} (hm : m ≤ rest.length)
    (hoff : acc₁.offset = acc.offset + m)
    (hdis : ∀ t, acc.discarded = clampU64 t → acc₁.discarded =
      clampU64 (t + (m - (sift (ident.dropsAt e.plan) e.streamLossOffset (rest.take m)).length)))
    (hs : Sifted ident e (rest.take m) e₁) (h : ClassifiedTo ident e₁ (rest.drop m) acc₁ r n) :
    ClassifiedTo ident e rest acc r (m + n) := by
  have hn : n ≤ rest.length - m := by simpa using h.le
  have hsift : sift (ident.dropsAt e.plan) e.streamLossOffset (rest.take (m + n)) =
      sift (ident.dropsAt e.plan) e.streamLossOffset (rest.take m) ++
        sift (ident.dropsAt e₁.plan) e₁.streamLossOffset ((rest.drop m).take n) := by
    rw [List.take_add, sift_append, hs.plan, hs.offset]
  refine ⟨by omega, ?_, ?_, h.lossAt, ?_⟩
  · rw [h.offset, hoff, Nat.add_assoc]
  · intro t ht
    have hle := sift_length_le (ident.dropsAt e.plan) e.streamLossOffset (rest.take m)
    have hle' := sift_length_le (ident.dropsAt e₁.plan) e₁.streamLossOffset ((rest.drop m).take n)
    simp only [List.length_take, List.length_drop] at hle hle'
    rw [h.discarded _ (hdis t ht), hsift, List.length_append]
    congr 1
    omega
  · rw [List.take_add]
    exact hs.trans h.sifted

/-- Starting from a state that has taken nothing yet. -/
theorem ClassifiedTo.after {ident : Identity} {e e₁ : DirectionEngine} {rest : List Byte} {acc : Classified}
    {r : Classified × DirectionEngine} {n : Nat} (hs : Sifted ident e [] e₁)
    (h : ClassifiedTo ident e₁ rest acc r n) : ClassifiedTo ident e rest acc r n := by
  rw [← Nat.zero_add n]
  exact .next (Nat.zero_le _) rfl (fun t ht => by simpa using ht) hs (by simpa using h)

theorem LossAt.advance {ident : Identity} {k m : Nat} {e : DirectionEngine} (h : LossAt ident k e)
    (hm : e.streamLossOffset + m ≤ u64Max) :
    LossAt ident k { e with streamLossOffset := satAdd e.streamLossOffset m } := by
  have hoff : satAdd e.streamLossOffset m = e.streamLossOffset + m := clampU64_of_le hm
  refine ⟨h.states, ?_, by rw [hoff]; exact hm⟩
  have := h.decided
  have : e.streamLossOffset / streamLossGrainBytes ≤ (e.streamLossOffset + m) / streamLossGrainBytes :=
    Nat.div_le_div_right (by omega)
  simp only [hoff]
  omega

theorem LossAt.of_pushed {ident : Identity} {k : Nat} {e e' : DirectionEngine} {d : List Byte}
    (h : LossAt ident k e) (hp : Pushed e d e') : LossAt ident k e' := by
  obtain ⟨_, _, _, _, hf, -⟩ := hp.frame
  rw [hf]
  exact ⟨h.states, h.decided, h.offset⟩

theorem pushPreserveRun_pushed (e : DirectionEngine) (data : List Byte) (now : Nat) :
    (e.pushPreserveRun data now).1 ≤ data.length ∧
      Pushed e (data.take (e.pushPreserveRun data now).1) (e.pushPreserveRun data now).2.2.2 :=
  pushLoop_pushed now data.length e data

/-- Skipping a stretch that is dropped. -/
theorem Sifted.skip {ident : Identity} {e : DirectionEngine} {data : List Byte} (segments : Nat)
    (hdrop : sift (ident.dropsAt e.plan) e.streamLossOffset data = [])
    (hm : e.streamLossOffset + data.length ≤ u64Max) :
    Sifted ident e data { e with
      streamLossOffset := satAdd e.streamLossOffset data.length
      evidence := { e.evidence with segments } } :=
  ⟨by rw [hdrop]; exact ⟨.of_eq rfl rfl rfl rfl, ⟨_, _, _, _, rfl, rfl⟩⟩, clampU64_of_le hm⟩

/-- Queueing a stretch that is kept. -/
theorem Sifted.keep {ident : Identity} {e e' : DirectionEngine} {data : List Byte} (hp : Pushed e data e')
    (hkeep : sift (ident.dropsAt e.plan) e.streamLossOffset data = data)
    (hm : e.streamLossOffset + data.length ≤ u64Max) :
    Sifted ident e data { e' with streamLossOffset := satAdd e'.streamLossOffset data.length } := by
  obtain ⟨⟨hq, hb, hh, hfit, hmax⟩, ⟨r, bw, sc, ev, hf, hev⟩⟩ := hp
  have hoff : e'.streamLossOffset = e.streamLossOffset := by rw [hf]
  refine ⟨⟨?_, ⟨r, bw, sc, ev, ?_, ?_⟩⟩, ?_⟩
  · rw [hkeep]
    exact ⟨hq, hb, hh, hfit, hmax⟩
  · rw [hf]
  · simp only [EngineEvidence.sansLoss, hev]
  · rw [hoff]
    exact clampU64_of_le hm

/-- The chunk's decision changes nothing but the loss state. -/
theorem decideStreamLossChunk_sifted {ident : Identity} {k : Nat} {e : DirectionEngine} (h : LossAt ident k e) :
    Sifted ident e [] (e.decideStreamLossChunk (e.streamLossOffset / streamLossGrainBytes)).2 := by
  obtain ⟨-, -, sl, sle, ev, hf, hev⟩ := decideStreamLossChunk_spec h
  rw [hf]
  exact ⟨⟨.of_eq rfl rfl rfl rfl, ⟨_, _, _, _, rfl, hev⟩⟩, rfl⟩

/-- One turn on a dropped chunk, from the state its decision left. -/
theorem classify_skip {ident : Identity} {k run : Nat} {e : DirectionEngine} (rest : List Byte)
    (h : LossAt ident k e) (hle : run ≤ rest.length)
    (hrun : run ≤ chunkEnd (e.streamLossOffset / streamLossGrainBytes) - e.streamLossOffset)
    (hdrop : ident.dropsAt e.plan e.streamLossOffset = true) (segments : Nat) :
    let e' := { e with
      streamLossOffset := satAdd e.streamLossOffset run, evidence := { e.evidence with segments } }
    Sifted ident e (rest.take run) e' ∧ LossAt ident k e' ∧
      sift (ident.dropsAt e.plan) e.streamLossOffset (rest.take run) = [] := by
  have hend := (chunkEnd_spec h.offset hrun).1
  have hlen : (rest.take run).length = run := by simp [hle]
  have hsift := sift_chunk ident e.plan h.offset hrun hlen.le
  rw [hdrop, if_pos rfl] at hsift
  have hskip := Sifted.skip segments hsift (by rw [hlen]; exact hend)
  have hnext := h.advance hend
  rw [hlen] at hskip
  exact ⟨hskip, ⟨hnext.states, hnext.decided, hnext.offset⟩, hsift⟩

/-- One turn on a kept chunk, as far as the queue could own it. -/
theorem classify_keep {ident : Identity} {k run owned : Nat} {e e' : DirectionEngine} {rest : List Byte}
    (h : LossAt ident k e) (hle : owned ≤ run) (hlen : owned ≤ rest.length)
    (hrun : run ≤ chunkEnd (e.streamLossOffset / streamLossGrainBytes) - e.streamLossOffset)
    (hkeep : ident.dropsAt e.plan e.streamLossOffset = false) (hp : Pushed e (rest.take owned) e') :
    let e'' := { e' with streamLossOffset := satAdd e'.streamLossOffset owned }
    Sifted ident e (rest.take owned) e'' ∧ LossAt ident k e'' ∧
      sift (ident.dropsAt e.plan) e.streamLossOffset (rest.take owned) = rest.take owned := by
  have hend := (chunkEnd_spec h.offset hrun).1
  have hlen' : (rest.take owned).length = owned := by simp [hlen]
  have hsift := sift_chunk ident e.plan h.offset hrun (hlen'.trans_le hle)
  rw [hkeep, if_neg Bool.false_ne_true] at hsift
  have hoff : e'.streamLossOffset = e.streamLossOffset := by
    obtain ⟨_, _, _, _, hf, -⟩ := hp.frame
    rw [hf]
  have hsifted := Sifted.keep hp hsift (by omega)
  rw [hlen'] at hsifted
  exact ⟨hsifted, (h.of_pushed hp).advance (by omega), hsift⟩

theorem classifyLoop_spec (now fuel : Nat) {ident : Identity} {k : Nat} {e : DirectionEngine} (h : LossAt ident k e)
    (rest : List Byte) (acc : Classified) :
    ∃ n, ClassifiedTo ident e rest acc (classifyLoop now fuel e rest acc) n := by
  induction fuel generalizing k e rest acc with
  | zero => exact ⟨0, .stop h (.refl ident e)⟩
  | succ fuel ih =>
    simp only [classifyLoop]
    split
    · exact ⟨0, .stop h (.refl ident e)⟩
    generalize hrun : min (chunkEnd (e.streamLossOffset / streamLossGrainBytes) - e.streamLossOffset) rest.length = run
    split
    · exact ⟨0, .stop h (.refl ident e)⟩
    obtain ⟨hdrop, hl, -⟩ := decideStreamLossChunk_spec h
    have hd := decideStreamLossChunk_sifted h
    generalize e.decideStreamLossChunk (e.streamLossOffset / streamLossGrainBytes) = decided at *
    obtain ⟨drop, e₁⟩ := decided
    simp only at hdrop hl hd ⊢
    rw [← hd.plan, ← show e₁.streamLossOffset = e.streamLossOffset from hd.offset] at hdrop
    rw [← show e₁.streamLossOffset = e.streamLossOffset from hd.offset] at hrun
    split
    -- The chunk is dropped: its range is skipped, and counted as discarded.
    · next hyes =>
      obtain ⟨hskip, hl', hsift⟩ := classify_skip rest hl (by omega) (show run ≤ _ by omega)
        (hdrop.symm.trans hyes) (satAdd e₁.evidence.segments 1)
      obtain ⟨n, hn⟩ := ih hl' (rest.drop run)
        { acc with offset := acc.offset + run, discarded := satAdd acc.discarded run }
      refine ⟨run + n, .after hd (.next (by omega) rfl (fun t ht => ?_) hskip hn)⟩
      rw [hsift, ht, satAdd_clamp, List.length_nil, Nat.sub_zero]
    -- The chunk is kept, as far as the queue can own it.
    · next hno =>
      split
      · exact ⟨0, .stop hl hd⟩
      obtain ⟨hown, hpush⟩ := e₁.pushPreserveRun_pushed (rest.take (min run (e₁.maxBuffer - e₁.buffered))) now
      generalize e₁.pushPreserveRun (rest.take (min run (e₁.maxBuffer - e₁.buffered))) now = pushed at *
      obtain ⟨owned, latency, slice, e₂⟩ := pushed
      simp only [List.length_take] at hown hpush ⊢
      rw [List.take_take, Nat.min_eq_left (by omega)] at hpush
      obtain ⟨hkeep, hl', hsift⟩ := classify_keep hl (show owned ≤ run by omega) (by omega) (by omega)
        (hdrop.symm.trans (by simpa using hno)) hpush
      generalize ({ e₂ with streamLossOffset := satAdd e₂.streamLossOffset owned } : DirectionEngine) = e₃ at *
      -- The owned stretch comes first, whether the loop stops behind it or goes on.
      have hgo : ∀ {acc' : Classified} {r n}, ClassifiedTo ident e₃ (rest.drop owned) acc' r n →
          acc'.offset = acc.offset + owned → acc'.discarded = acc.discarded →
          ∃ n, ClassifiedTo ident e rest acc r n := by
        intro acc' r n hn hoff hdis
        refine ⟨owned + n, .after hd (.next (by omega) hoff (fun t ht => ?_) hkeep hn)⟩
        rw [hsift, List.length_take, Nat.min_eq_left (by omega), Nat.sub_self, Nat.add_zero, hdis, ht]
      split
      · exact hgo (.stop hl' (.refl ident _)) rfl rfl
      · obtain ⟨n, hn⟩ := ih hl' (rest.drop owned) { acc with
          offset := acc.offset + owned, preserved := acc.preserved + owned
          latency := acc.latency || latency, slice := acc.slice || slice }
        exact hgo hn rfl rfl

end DirectionEngine

end Eggchaos
