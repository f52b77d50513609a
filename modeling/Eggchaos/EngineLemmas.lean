import Eggchaos.Engine
/-!
# What the engine's operations do

One lemma for each operation, in the terms later proofs use:

- `Pushed e data e'`: `e'` is `e` with `data` queued at the back. Every way of
  queueing bytes is shown to be this, and nothing else of the engine that a
  later proof looks at has changed.
- `Published`: what a publication can do to the termination.
- `AcceptCases`: the ways `accept` goes.
- `Drained e out e'`: `e'` is `e` with the bytes `out` gone from the front.

The loops' fuel suffices: `pushLoop_owns` and `pollQueue_driven`.
-/

namespace Eggchaos
open Lib

/-! ## Queues of segments -/

/-- The bytes of a list of segments, in order. -/
def segmentBytes (queue : List Queued) : List Byte := queue.flatMap (·.bytes)

@[simp] theorem segmentBytes_nil : segmentBytes [] = [] := rfl

@[simp] theorem segmentBytes_cons (s : Queued) (q : List Queued) :
    segmentBytes (s :: q) = s.bytes ++ segmentBytes q := by
  simp [segmentBytes]

@[simp] theorem segmentBytes_append (q q' : List Queued) :
    segmentBytes (q ++ q') = segmentBytes q ++ segmentBytes q' := by
  simp [segmentBytes]

/-- No segment is empty. -/
def Solid (queue : List Queued) : Prop := ∀ s ∈ queue, s.bytes ≠ []

theorem Solid.append {q q' : List Queued} (h : Solid q) (h' : Solid q') : Solid (q ++ q') := by
  intro s hs
  rcases List.mem_append.1 hs with hs | hs
  · exact h s hs
  · exact h' s hs

theorem Solid.nil : Solid [] := by simp [Solid]

/-- A queue without empty segments holds no bytes only when it is empty. -/
theorem Solid.eq_nil {q : List Queued} (h : Solid q) (hb : segmentBytes q = []) : q = [] := by
  cases q with
  | nil => rfl
  | cons s q =>
    simp only [segmentBytes_cons, List.append_eq_nil_iff] at hb
    exact absurd hb.1 (h s (by simp))

/-! ## Evidence -/

/-- The evidence but for the counters that shaping a segment moves. -/
def EngineEvidence.sansShaping (ev : EngineEvidence) : EngineEvidence :=
  { ev with segments := 0, slices := 0, injectedDelayMs := 0, throttledDelayMs := 0 }

namespace DirectionEngine

theorem queuedBytes_eq (e : DirectionEngine) : e.queuedBytes = segmentBytes e.queue := rfl

/-! ## Publishing a termination -/

/-- A publication records the information unless one is recorded already, and
touches nothing but termination, handle and evidence. -/
theorem publishCounting_eq (e : DirectionEngine) (info : TerminationInfo) (slot : Fin 7) :
    ∃ acts, e.publishCounting info slot = { e with
      termination := some (e.termination.getD info)
      termHandle := e.termHandle.publish info
      evidence := { e.evidence with
        termination := some (e.termination.getD info).request, activations := acts } } := by
  cases h : e.termination with
  | none => exact ⟨e.evidence.activations.bumpAt slot, by simp [publishCounting, publishTermination, h]⟩
  | some old =>
    refine ⟨e.evidence.activations, ?_⟩
    simp only [publishCounting, publishTermination, h, Option.getD_some]
    rfl

/-- `e'` is `e`, or `e` after publishing `info` where nothing was recorded. -/
def Published (e : DirectionEngine) (infos : TerminationInfo → Prop) (e' : DirectionEngine) : Prop :=
  e' = e ∨ (e.termination = none ∧ ∃ info slot, infos info ∧ e' = e.publishCounting info slot)

/-- The requests that become due with time. -/
def DueInfo (e : DirectionEngine) (info : TerminationInfo) : Prop :=
  (∃ state, e.disconnect = some state ∧ info = e.disconnectInfo state) ∨
    (∃ deadline id, e.blackhole = some ⟨some deadline, id⟩ ∧ info = e.gracefulInfo id)

theorem refreshBlackhole_published (e : DirectionEngine) (now : Nat) (h : e.termination = none) :
    Published e e.DueInfo (e.refreshBlackhole now) := by
  unfold refreshBlackhole
  split
  · next deadline id hb =>
    split
    · exact .inr ⟨h, _, _, .inr ⟨deadline, id, hb, rfl⟩, rfl⟩
    · exact .inl rfl
  · exact .inl rfl

/-- Refreshing publishes a due request or changes nothing. -/
theorem refresh_published (e : DirectionEngine) (c : Clock) :
    Published e e.DueInfo (e.refreshSyncTerminations c).1 := by
  simp only [refreshSyncTerminations]
  split
  · exact .inl rfl
  · next h =>
    have hn : e.termination = none := by simpa using h
    split
    · next state hd =>
      split
      · exact .inr ⟨hn, _, _, .inl ⟨state, hd, rfl⟩, rfl⟩
      · exact refreshBlackhole_published e _ hn
    · exact refreshBlackhole_published e _ hn

/-- What a publication leaves alone. -/
theorem Published.frame {e e' : DirectionEngine} {infos} (h : Published e infos e') :
    ∃ t handle ev, e' = { e with termination := t, termHandle := handle, evidence := ev } ∧
      { ev with termination := e.evidence.termination, activations := e.evidence.activations } = e.evidence := by
  rcases h with rfl | ⟨-, info, slot, -, rfl⟩
  · exact ⟨_, _, _, rfl, rfl⟩
  · obtain ⟨acts, h⟩ := e.publishCounting_eq info slot
    exact ⟨_, _, _, h, rfl⟩

/-! ## Queueing segments -/

/-- `e'` has `data` queued behind what `e` has queued, in segments that fit. -/
structure Enqueued (e : DirectionEngine) (data : List Byte) (e' : DirectionEngine) : Prop where
  queue : ∃ segs, e'.queue = e.queue ++ segs ∧ segmentBytes segs = data ∧ Solid segs
  buffered : e'.buffered = e.buffered + data.length
  highWater : e.buffered ≤ e.highWater → e'.highWater = max e.highWater e'.buffered
  fits : data ≠ [] → e'.buffered ≤ e.maxBuffer
  maxBuffer : e'.maxBuffer = e.maxBuffer

/-- Nothing is queued where these four fields stay. -/
theorem Enqueued.of_eq {e e' : DirectionEngine} (hq : e'.queue = e.queue) (hb : e'.buffered = e.buffered)
    (hh : e'.highWater = e.highWater) (hm : e'.maxBuffer = e.maxBuffer) : Enqueued e [] e' where
  queue := ⟨[], by simp [hq], rfl, Solid.nil⟩
  buffered := by simp [hb]
  highWater h := by omega
  fits h := absurd rfl h
  maxBuffer := hm

theorem Enqueued.trans {e e₁ e₂ : DirectionEngine} {d d' : List Byte} (h : Enqueued e d e₁)
    (h' : Enqueued e₁ d' e₂) : Enqueued e (d ++ d') e₂ := by
  obtain ⟨⟨segs, hq, hb, hs⟩, hbuf, hhw, hfit, hmax⟩ := h
  obtain ⟨⟨segs', hq', hb', hs'⟩, hbuf', hhw', hfit', hmax'⟩ := h'
  refine ⟨⟨segs ++ segs', ?_, ?_, hs.append hs'⟩, ?_, ?_, ?_, hmax'.trans hmax⟩
  · rw [hq', hq, List.append_assoc]
  · rw [segmentBytes_append, hb, hb']
  · rw [hbuf', hbuf, List.length_append]; omega
  · intro h
    have := hhw h
    have := hhw' (by omega)
    omega
  · intro hne
    rcases eq_or_ne d' [] with rfl | hd'
    · have := hfit (by simpa using hne)
      simp only [List.length_nil] at hbuf'
      omega
    · exact hmax ▸ hfit' hd'

theorem Enqueued.bytes {e e' : DirectionEngine} {d : List Byte} (h : Enqueued e d e') :
    segmentBytes e'.queue = segmentBytes e.queue ++ d := by
  obtain ⟨segs, hq, hb, -⟩ := h.queue
  rw [hq, segmentBytes_append, hb]

theorem Enqueued.solid {e e' : DirectionEngine} {d : List Byte} (h : Enqueued e d e') (hs : Solid e.queue) :
    Solid e'.queue := by
  obtain ⟨segs, hq, -, hsegs⟩ := h.queue
  rw [hq]
  exact hs.append hsegs

/-- `data` is queued at the back, and shaping it moved only the draws, the
bucket, the slice cursor and the shaping counters. -/
structure Pushed (e : DirectionEngine) (data : List Byte) (e' : DirectionEngine) : Prop extends
    Enqueued e data e' where
  frame : ∃ rngs bandwidth sliceCursor evidence,
    e' = { e with queue := e'.queue, buffered := e'.buffered, highWater := e'.highWater,
                  rngs, bandwidth, sliceCursor, evidence } ∧
      evidence.sansShaping = e.evidence.sansShaping

theorem Pushed.refl (e : DirectionEngine) : Pushed e [] e :=
  ⟨.of_eq rfl rfl rfl rfl, ⟨_, _, _, _, rfl, rfl⟩⟩

theorem Pushed.trans {e e₁ e₂ : DirectionEngine} {d d' : List Byte} (h : Pushed e d e₁) (h' : Pushed e₁ d' e₂) :
    Pushed e (d ++ d') e₂ := by
  obtain ⟨hq, ⟨r, bw, sc, ev, hf, hev⟩⟩ := h
  obtain ⟨hq', ⟨r', bw', sc', ev', hf', hev'⟩⟩ := h'
  refine ⟨hq.trans hq', ⟨r', bw', sc', ev', ?_, ?_⟩⟩
  · rw [hf'.trans (by rw [hf])]
  · rw [hev', ← hev, hf]

/-- Drawing a segment length moves only the slicers' draws, and the length is
between one and what remains. -/
theorem nextChunk_spec (e : DirectionEngine) {remaining : Nat} (h : 0 < remaining) :
    (∃ rngs, (e.nextChunk remaining).2 = { e with rngs }) ∧
      0 < (e.nextChunk remaining).1 ∧ (e.nextChunk remaining).1 ≤ remaining := by
  simp only [nextChunk, nextSliceSize]
  split
  · exact ⟨⟨_, rfl⟩, by simp only; omega, by simp only; omega⟩
  · exact ⟨⟨_, rfl⟩, by simp only; omega, by simp only; omega⟩

theorem throttleSegment_spec (e : DirectionEngine) (len now release : Nat) :
    ∃ bandwidth evidence, (e.throttleSegment len now release).2 = { e with bandwidth, evidence } ∧
      evidence.sansShaping = e.evidence.sansShaping := by
  unfold throttleSegment
  split
  · exact ⟨_, _, rfl, rfl⟩
  · exact ⟨_, _, rfl, rfl⟩

theorem staggerSegment_spec (e : DirectionEngine) (sliceDelay release : Nat) :
    ∃ sliceCursor, (e.staggerSegment sliceDelay release).2 = { e with sliceCursor } := by
  simp only [staggerSegment]
  split
  · exact ⟨_, rfl⟩
  · exact ⟨_, rfl⟩

/-- Queueing one non-empty segment that fits. -/
theorem pushSegment_pushed (e : DirectionEngine) (bytes : List Byte) (now : Nat) (hne : bytes ≠ [])
    (hfit : e.buffered + bytes.length ≤ e.maxBuffer) : Pushed e bytes (e.pushSegment bytes now).2.2 := by
  simp only [pushSegment]
  generalize stageSegment e.plan.faults e.rngs _ = staged
  obtain ⟨staged, rngs⟩ := staged
  simp only
  generalize he₁ : ({ e with rngs := rngs, evidence := _ } : DirectionEngine) = e₁
  obtain ⟨bw, ev, ht, hev⟩ := e₁.throttleSegment_spec bytes.length now staged.release
  generalize e₁.throttleSegment bytes.length now staged.release = throttled at *
  obtain ⟨sc, hs⟩ := throttled.2.staggerSegment_spec staged.sliceDelay throttled.1
  generalize throttled.2.staggerSegment staged.sliceDelay throttled.1 = staggered at *
  rw [hs, ht, ← he₁]
  refine ⟨⟨⟨[⟨bytes, staggered.1⟩], rfl, by simp, ?_⟩, rfl, fun _ => rfl, fun _ => hfit, rfl⟩,
    ⟨_, _, _, _, rfl, ?_⟩⟩
  · simpa [Solid] using hne
  · simp only [EngineEvidence.sansShaping] at hev ⊢
    rw [← he₁] at hev
    simpa using hev

theorem pushLoop_pushed (now fuel : Nat) (e : DirectionEngine) (data : List Byte) :
    (pushLoop now fuel e data).1 ≤ data.length ∧
      Pushed e (data.take (pushLoop now fuel e data).1) (pushLoop now fuel e data).2.2.2 := by
  induction fuel generalizing e data with
  | zero => exact ⟨Nat.zero_le _, by simpa [pushLoop] using Pushed.refl e⟩
  | succ fuel ih =>
    simp only [pushLoop]
    by_cases hnil : data.isEmpty
    · simpa [hnil] using Pushed.refl e
    have hpos : 0 < data.length := by simpa [List.length_pos_iff] using hnil
    obtain ⟨⟨rngs, hr⟩, hc, hle⟩ := e.nextChunk_spec hpos
    generalize e.nextChunk data.length = chunk at *
    obtain ⟨chunk, e₁⟩ := chunk
    simp only at hr hc hle ⊢
    have hdraw : Pushed e [] e₁ := by
      rw [hr]
      exact ⟨.of_eq rfl rfl rfl rfl, ⟨_, _, _, _, rfl, rfl⟩⟩
    simp only [hnil, Bool.false_eq_true, if_false]
    split
    -- A segment that does not fit: only the draw has happened.
    · simpa using hdraw
    · next hfull =>
      have hlen : (data.take chunk).length = chunk := by simp [hle]
      have hseg := e₁.pushSegment_pushed (data.take chunk) now
        (by rw [← List.length_pos_iff]; omega) (by omega)
      obtain ⟨hown, hrest⟩ := ih (e₁.pushSegment (data.take chunk) now).2.2 (data.drop chunk)
      generalize pushLoop now fuel (e₁.pushSegment (data.take chunk) now).2.2 (data.drop chunk) = tail at *
      rw [List.length_drop] at hown
      refine ⟨by omega, ?_⟩
      have h := (hdraw.trans hseg).trans hrest
      rwa [List.nil_append, ← List.take_add] at h

/-- Data that fits the queue is owned whole, and the fuel lasts. -/
theorem pushLoop_owns (now : Nat) {fuel : Nat} {e : DirectionEngine} {data : List Byte} (hfuel : data.length ≤ fuel)
    (hfit : e.buffered + data.length ≤ e.maxBuffer) : (pushLoop now fuel e data).1 = data.length := by
  induction fuel generalizing e data with
  | zero => simp [pushLoop]; omega
  | succ fuel ih =>
    simp only [pushLoop]
    by_cases hnil : data.isEmpty
    · obtain rfl : data = [] := by simpa using hnil
      simp
    have hpos : 0 < data.length := by simpa [List.length_pos_iff] using hnil
    obtain ⟨⟨rngs, hr⟩, hc, hle⟩ := e.nextChunk_spec hpos
    generalize e.nextChunk data.length = chunk at *
    obtain ⟨chunk, e₁⟩ := chunk
    simp only at hr hc hle ⊢
    have hbuf : e₁.buffered = e.buffered := by rw [hr]
    have hmax : e₁.maxBuffer = e.maxBuffer := by rw [hr]
    simp only [hnil, Bool.false_eq_true, if_false, if_neg (show ¬ e₁.maxBuffer < e₁.buffered + chunk by omega)]
    have hlen : (data.take chunk).length = chunk := by simp [hle]
    have hseg := e₁.pushSegment_pushed (data.take chunk) now (by rw [← List.length_pos_iff]; omega) (by omega)
    have hmax' := hseg.maxBuffer.trans hmax
    have hbuf' := hseg.buffered
    rw [ih (by simp; omega) (by rw [hmax', hbuf', List.length_drop]; omega), List.length_drop]
    omega

/-! ## Accepting -/

/-- The ways `accept` goes from the state the termination refresh leaves. -/
inductive AcceptCases (e : DirectionEngine) (c : Clock) (input : List Byte) :
    Nat × DirectionEngine × Clock → Prop
  | idle (hnil : input = []) : AcceptCases e c input (0, e, c)
  | refused (hne : input ≠ []) (hlim : e.limitAvailable = 0) : AcceptCases e c input (0, e.refuseAtLimit, c.tick)
  | into (hne : input ≠ []) (hlim : e.limitAvailable ≠ 0) :
    AcceptCases e c input (e.acceptInto c.tick input c.now)

theorem accept_cases (e : DirectionEngine) (c : Clock) (input : List Byte) :
    AcceptCases (e.refreshSyncTerminations c).1 (e.refreshSyncTerminations c).2 input (e.accept c input) := by
  simp only [accept]
  split
  · next hnil => exact .idle (by simpa using hnil)
  · next hne =>
    have hne : input ≠ [] := by simpa using hne
    split
    · next hlim => exact .refused hne hlim
    · next hlim => exact .into hne hlim

/-! ## Draining the queue -/

/-- `e'` is `e` with the bytes `out` gone from the front of the queue. -/
structure Drained (e : DirectionEngine) (out : List Byte) (e' : DirectionEngine) : Prop where
  bytes : segmentBytes e.queue = out ++ segmentBytes e'.queue
  solid : Solid e.queue → Solid e'.queue
  buffered : e'.buffered = e.buffered - out.length
  forwarded : ∀ t, e.evidence.bytesForwarded = clampU64 t →
    e'.evidence.bytesForwarded = clampU64 (t + out.length)
  frame : ∃ queueTimer bytesForwarded, e' = { e with
    queue := e'.queue, buffered := e'.buffered, queueTimer, evidence := { e.evidence with bytesForwarded } }

theorem Drained.refl (e : DirectionEngine) (timer : ArmedTimer) : Drained e [] { e with queueTimer := timer } where
  bytes := by simp
  solid h := h
  buffered := by simp
  forwarded t h := by simpa using h
  frame := ⟨_, _, rfl⟩

theorem Drained.trans {e e₁ e₂ : DirectionEngine} {o o' : List Byte} (h : Drained e o e₁) (h' : Drained e₁ o' e₂) :
    Drained e (o ++ o') e₂ := by
  obtain ⟨hb, hs, hbuf, hfw, ⟨t, f, hf⟩⟩ := h
  obtain ⟨hb', hs', hbuf', hfw', ⟨t', f', hf'⟩⟩ := h'
  refine ⟨by rw [hb, hb', List.append_assoc], fun h => hs' (hs h), ?_, ?_, ⟨t', f', ?_⟩⟩
  · rw [hbuf', hbuf, List.length_append]; omega
  · intro n hn
    rw [hfw' _ (hfw n hn), List.length_append, Nat.add_assoc]
  · exact hf'.trans (by rw [hf])

/-- Forwarding the first `n` bytes of the head segment. -/
theorem drained_head {e : DirectionEngine} {front : Queued} {rest : List Queued} {n : Nat} (timer : ArmedTimer)
    (hq : e.queue = front :: rest) (hn : n ≤ front.bytes.length) :
    Drained e (front.bytes.take n) { e with
      queueTimer := timer
      evidence := { e.evidence with bytesForwarded := satAdd e.evidence.bytesForwarded n }
      buffered := e.buffered - n
      queue := if n = front.bytes.length then rest else ⟨front.bytes.drop n, front.release⟩ :: rest } where
  bytes := by
    rw [hq]
    split
    · next h => simp [h]
    · simp [← List.append_assoc]
  solid h := by
    rw [hq] at h
    simp only
    split
    · exact fun s hs => h s (by simp [hs])
    · intro s hs
      rcases List.mem_cons.1 hs with rfl | hs
      · simp only [ne_eq, List.drop_eq_nil_iff]; omega
      · exact h s (by simp [hs])
  buffered := by simp [hn]
  forwarded t h := by simp only [h, satAdd_clamp, List.length_take, Nat.min_eq_left hn]
  frame := ⟨_, _, rfl⟩

section
variable {τ : Type} [AsyncWrite τ] [RecordsWrites τ]

/-- What a drive of the queue does: some bytes leave from the front, in order,
and the writer has taken exactly these. It reports success only with the queue
empty, and anything else only with bytes still queued. -/
structure Driven (e : DirectionEngine) (inner : τ) (r : Poll (IoResult Unit) × DirectionEngine × τ × Clock) : Prop where
  drained : ∃ out, Drained e out r.2.1 ∧ RecordsWrites.log r.2.2.1 = RecordsWrites.log inner ++ out
  ready : r.1 = .ready (.ok ()) ↔ r.2.1.queue = []

theorem pollQueueLoop_driven (fuel : Nat) (e : DirectionEngine) (inner : τ) (c : Clock)
    (hfuel : (segmentBytes e.queue).length < fuel) : Driven e inner (pollQueueLoop fuel e inner c) := by
  induction fuel generalizing e inner c with
  | zero => omega
  | succ fuel ih =>
    simp only [pollQueueLoop]
    split
    · next hq => exact ⟨⟨[], by simpa using Drained.refl e e.queueTimer, by simp⟩, by simp [hq]⟩
    next front rest hq =>
    generalize (if c.now < front.release then e.queueTimer.poll c.tick c.now front.release
      else (Poll.ready (), e.queueTimer, c.tick)) = held
    obtain ⟨held, timer, c'⟩ := held
    simp only
    split
    · exact ⟨⟨[], Drained.refl e timer, by simp⟩, by simp [hq]⟩
    have hlog := RecordsWrites.log_pollWrite inner front.bytes
    split
    · next n inner' hw =>
      rw [hw] at hlog
      simp only [taken] at hlog
      split
      · next hzero => exact ⟨⟨[], Drained.refl e timer, by simpa [hzero] using hlog⟩, by simp [hq]⟩
      · next hzero =>
        split
        · next hover =>
          exact ⟨⟨[], Drained.refl e timer, by simpa [Nat.not_le.2 hover] using hlog⟩, by simp [hq]⟩
        · next hover =>
          have hn : n ≤ front.bytes.length := Nat.not_lt.1 hover
          rw [if_pos hn] at hlog
          -- At least one byte left, so the loop goes on with enough fuel.
          have hnext : ∀ e', Drained e (front.bytes.take n) e' →
              Driven e inner (pollQueueLoop fuel e' inner' c') := by
            intro e' hhead
            have hless := congrArg List.length hhead.bytes
            rw [List.length_append, List.length_take, Nat.min_eq_left hn] at hless
            obtain ⟨⟨out, hd, hl⟩, hready⟩ := ih e' inner' c' (by omega)
            exact ⟨⟨_, hhead.trans hd, by rw [hl, hlog, List.append_assoc]⟩, hready⟩
          exact hnext _ (drained_head timer hq hn)
    · next error inner' hw =>
      rw [hw] at hlog
      exact ⟨⟨[], Drained.refl e timer, by simpa [taken] using hlog⟩, by simp [hq]⟩
    · next inner' hw =>
      rw [hw] at hlog
      exact ⟨⟨[], Drained.refl e timer, by simpa [taken] using hlog⟩, by simp [hq]⟩

theorem pollQueue_driven (e : DirectionEngine) (inner : τ) (c : Clock) : Driven e inner (e.pollQueue inner c) :=
  pollQueueLoop_driven _ e inner c (Nat.lt_succ_self _)

end

end DirectionEngine

end Eggchaos
