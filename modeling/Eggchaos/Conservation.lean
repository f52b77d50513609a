import Eggchaos.Polls
import Eggchaos.Compile
import Eggchaos.Lib.Runs
/-!
# Conservation of bytes

A run of one engine is any list of calls, over any writer and any clock. The
run state keeps, next to the engine, what the calls have accepted: each byte,
and whether the blackhole was discarding when it was handed in.

`Conserved` is the invariant: what the writer took, then what is queued, is
what was accepted less what the blackhole discarded and the stream-loss faults
dropped; the counters count these; and the queue keeps its bound.
-/

namespace Eggchaos
open Lib DirectionEngine

/-- A run of one engine: the engine, its writer, the clock, and ghost state. -/
structure EngineRun (τ : Type) where
  engine : DirectionEngine
  inner : Tap τ
  clock : Clock
  /-- The bytes accepted so far, each with whether the blackhole discarded it. -/
  accepted : List (Byte × Bool) := []
  /-- The sum of what the accepting calls returned. -/
  returned : Nat := 0

namespace EngineRun

section
variable {τ : Type}

/-- The accepted bytes that no blackhole discarded. -/
def exposed (accepted : List (Byte × Bool)) : List Byte := (accepted.filter fun b => !b.2).map (·.1)

/-- The accepted bytes that were discarded neither by a blackhole nor by a
stream-loss fault. -/
def kept (ident : Identity) (plan : FaultPlan) (accepted : List (Byte × Bool)) : List Byte :=
  sift (ident.dropsAt plan) 0 (exposed accepted)

/-! ## The invariant -/

structure Conserved (ident : Identity) (plan : FaultPlan) (s : EngineRun τ) : Prop where
  samePlan : s.engine.plan = plan
  lossAt : ∃ k, LossAt ident k s.engine
  offset : s.engine.lossy → s.engine.streamLossOffset = (exposed s.accepted).length
  bytes : s.inner.written ++ segmentBytes s.engine.queue = kept ident plan s.accepted
  solid : Solid s.engine.queue
  buffered : s.engine.buffered = (segmentBytes s.engine.queue).length
  low : s.engine.buffered ≤ s.engine.highWater
  high : s.engine.highWater ≤ s.engine.maxBuffer
  returned : s.returned = s.accepted.length
  accepted : s.engine.evidence.bytesAccepted = clampU64 s.accepted.length
  forwarded : s.engine.evidence.bytesForwarded = clampU64 s.inner.written.length
  discarded : s.engine.evidence.bytesDiscarded =
    clampU64 (s.accepted.length - (kept ident plan s.accepted).length)
  lost : s.engine.evidence.streamLossBytesDiscarded =
    clampU64 ((exposed s.accepted).length - (kept ident plan s.accepted).length)

theorem exposed_append (l : List (Byte × Bool)) (data : List Byte) (discards : Bool) :
    exposed (l ++ data.map (·, discards)) = exposed l ++ if discards then [] else data := by
  simp only [exposed, List.filter_append, List.map_append, List.filter_map, List.map_map]
  cases discards <;> simp [Function.comp_def]

theorem exposed_length_le (l : List (Byte × Bool)) : (exposed l).length ≤ l.length := by
  simpa [exposed] using List.length_filter_le _ l

theorem kept_length_le (ident : Identity) (plan : FaultPlan) (l : List (Byte × Bool)) :
    (kept ident plan l).length ≤ (exposed l).length := sift_length_le _ _ _

/-- What a call keeps is what it adds to the kept bytes of the run. -/
theorem kept_append {ident : Identity} {k : Nat} {e : DirectionEngine} (hl : LossAt ident k e)
    {l : List (Byte × Bool)} (hoff : e.lossy → e.streamLossOffset = (exposed l).length) (discards : Bool)
    (data : List Byte) :
    kept ident e.plan (l ++ data.map (·, discards)) = kept ident e.plan l ++ survivors ident e discards data := by
  rw [kept, exposed_append, sift_append, Nat.zero_add, ← kept]
  cases discards
  · simp only [survivors, Bool.false_eq_true, if_false]
    cases hlossy : e.lossy
    · rw [sift_const fun _ _ => dropsAt_of_not_lossy hl hlossy _,
        sift_const fun _ _ => dropsAt_of_not_lossy hl hlossy _]
    · rw [hoff hlossy]
  · simp [survivors]

theorem Conserved.pass {ident : Identity} {plan : FaultPlan} {s s' : EngineRun τ} {out : List Byte}
    (h : Conserved ident plan s) (hp : Passed s.engine out s'.engine)
    (hw : s'.inner.written = s.inner.written ++ out) (ha : s'.accepted = s.accepted)
    (hr : s'.returned = s.returned) : Conserved ident plan s' := by
  obtain ⟨k, hl⟩ := h.lossAt
  have hlen := congrArg List.length hp.bytes
  rw [List.length_append] at hlen
  have hlow := h.low
  have hhigh := h.high
  have hbuf := h.buffered
  have hbuf' := hp.buffered
  obtain ⟨_, _, _, _, _, _, _, hf⟩ := hp.frame
  have hhw : s'.engine.highWater = s.engine.highWater := by rw [hf]
  refine ⟨?_, ⟨k, hp.lossAt hl⟩, ?_, ?_, hp.solid h.solid, by omega, by omega, ?_, ?_, ?_, ?_, ?_, ?_⟩
  · rw [hf]; exact h.samePlan
  · rw [hf, ha]; exact h.offset
  · rw [hw, ha, List.append_assoc, ← hp.bytes]; exact h.bytes
  · rw [hf]; exact hhigh
  · rw [hr, ha]; exact h.returned
  · rw [hf, ha]; exact h.accepted
  · rw [hw, List.length_append]; exact hp.forwarded _ h.forwarded
  · rw [hf, ha]; exact h.discarded
  · rw [hf, ha]; exact h.lost

theorem Conserved.accept {ident : Identity} {plan : FaultPlan} {s s' : EngineRun τ} {discards : Bool}
    {data : List Byte} {n : Nat} (h : Conserved ident plan s)
    (hp : Accepted ident s.engine discards data n s'.engine) (hw : s'.inner = s.inner)
    (ha : s'.accepted = s.accepted ++ (data.take n).map (·, discards)) (hr : s'.returned = s.returned + n) :
    Conserved ident plan s' := by
  obtain ⟨k, hl⟩ := h.lossAt
  have hplan := h.samePlan
  subst hplan
  have hkept := kept_append hl h.offset discards (data.take n)
  rw [← ha] at hkept
  have hsetup := hp.setup
  have hplan : s'.engine.plan = s.engine.plan := congrArg Setup.plan hsetup
  have hmax : s'.engine.maxBuffer = s.engine.maxBuffer := hp.maxBuffer
  have hlossy : s'.engine.lossy = s.engine.lossy := by
    obtain ⟨k', hl'⟩ := hp.lossAt
    rw [lossy_iff hl, lossy_iff hl', hplan]
  have hlen : (data.take n).length = n := by simpa using hp.le
  have hacclen : s'.accepted.length = s.accepted.length + n := by rw [ha]; simp [hp.le]
  have hexplen : (exposed s'.accepted).length = (exposed s.accepted).length + if discards then 0 else n := by
    rw [ha, exposed_append]
    cases discards <;> simp [hp.le]
  have hle := survivors_length_le ident s.engine discards (data.take n)
  have hle' := kept_length_le ident s.engine.plan s.accepted
  have hle'' := exposed_length_le s.accepted
  have hnone : discards = true → (survivors ident s.engine discards (data.take n)).length = 0 := by
    rintro rfl; rfl
  have hlow := h.low
  have hhigh := h.high
  have hhw := hp.highWater hlow
  refine ⟨hplan, hp.lossAt, ?_, ?_, hp.solid h.solid, ?_, by omega, ?_, ?_, ?_, ?_, ?_, ?_⟩
  · intro hy
    rw [hlossy] at hy
    rw [hp.offset hy, h.offset hy, hexplen]
  · rw [hw, hp.bytes, ← List.append_assoc, h.bytes, hkept]
  · rw [hp.buffered, h.buffered, hp.bytes, List.length_append]
  · rw [hhw, hmax]
    rcases eq_or_ne (survivors ident s.engine discards (data.take n)) [] with hnil | hne
    · have := hp.buffered
      rw [hnil, List.length_nil] at this
      omega
    · have := hp.fits hne
      omega
  · rw [hr, hacclen, h.returned]
  · rw [hacclen]; exact hp.accepted _ h.accepted
  · rw [hw, hp.forwarded]; exact h.forwarded
  · rw [hp.discarded _ h.discarded, hkept, hacclen, List.length_append]
    congr 1
    omega
  · rw [hp.lost _ h.lost, hkept, hexplen, List.length_append]
    congr 1
    cases discards with
    | false => simp only [Bool.false_eq_true, if_false]; omega
    | true =>
      have := hnone rfl
      simp only [if_true]
      omega

theorem compile_conserved (plan : FaultPlan) (ident : Identity) (handle : TerminationHandle) (now : Nat) (io : τ)
    (clock : Clock) :
    Conserved ident plan { engine := compile plan ident handle now, inner := { io }, clock } where
  samePlan := rfl
  lossAt := ⟨0, compile_lossAt plan ident handle now⟩
  offset _ := rfl
  bytes := rfl
  solid := Solid.nil
  buffered := rfl
  low := le_rfl
  high := Nat.zero_le _
  returned := rfl
  accepted := rfl
  forwarded := rfl
  discarded := rfl
  lost := rfl

end

/-! ## Calls -/

variable {τ : Type} [AsyncWrite τ]

inductive Op where
  | accept (input : List Byte)
  | acceptVectored (bufs : List (List Byte))
  | pollFlush
  | pollShutdown
  | pollDueTermination
deriving DecidableEq, Repr

/-- Book the first `n` bytes of `input`, which a call took. -/
def book (s : EngineRun τ) (input : List Byte) (r : Nat × DirectionEngine × Clock) : EngineRun τ :=
  { s with
    engine := r.2.1
    clock := r.2.2
    accepted := s.accepted ++ (input.take r.1).map (·, s.engine.discardsAt s.clock)
    returned := s.returned + r.1 }

def step (s : EngineRun τ) : Op → EngineRun τ
  | .accept input => s.book input (s.engine.accept s.clock input)
  | .acceptVectored bufs => s.book bufs.flatten (s.engine.acceptVectored s.clock bufs)
  | .pollFlush =>
    let (_, engine, inner, clock) := s.engine.pollFlush s.inner s.clock
    { s with engine, inner, clock }
  | .pollShutdown =>
    let (_, engine, inner, clock) := s.engine.pollShutdown s.inner s.clock
    { s with engine, inner, clock }
  | .pollDueTermination =>
    let (_, engine, clock) := s.engine.pollDueTermination s.clock
    { s with engine, clock }

/-- The states that runs of an engine for this plan and identity reach. -/
def Reached (plan : FaultPlan) (ident : Identity) (s : EngineRun τ) : Prop :=
  ∃ handle c₀ engine clock io ops, newWithArcPlan plan ident handle c₀ = (.ok engine, clock) ∧
    s = run step { engine, inner := { io }, clock } ops

/-- Every call is a step that passes bytes on, or a refresh and an acceptance. -/
theorem step_cases {ident : Identity} {k : Nat} (s : EngineRun τ) (hl : LossAt ident k s.engine) (op : Op) :
    (∃ out, Passed s.engine out (step s op).engine ∧ (step s op).inner.written = s.inner.written ++ out ∧
      (step s op).accepted = s.accepted ∧ (step s op).returned = s.returned) ∨
    (∃ e₁ data n, Passed s.engine [] e₁ ∧ e₁ = (s.engine.refreshSyncTerminations s.clock).1 ∧
      Accepted ident e₁ (s.engine.discardsAt s.clock) data n (step s op).engine ∧
      (step s op).inner = s.inner ∧ (step s op).returned = s.returned + n ∧
      (step s op).accepted = s.accepted ++ (data.take n).map (·, s.engine.discardsAt s.clock)) := by
  cases op with
  | accept input =>
    exact .inr ⟨_, input, _, s.engine.refresh_passed s.clock, rfl, accept_accepted hl s.clock input, rfl, rfl, rfl⟩
  | acceptVectored bufs =>
    obtain ⟨m, hm⟩ := s.engine.acceptVectored_eq s.clock bufs
    have ha := accept_accepted hl s.clock (bufs.flatten.take m)
    refine .inr ⟨_, bufs.flatten.take m, (s.engine.acceptVectored s.clock bufs).1, s.engine.refresh_passed s.clock, rfl,
      by simpa only [step, book, hm] using ha, rfl, rfl, ?_⟩
    have hle := ha.le
    rw [← hm, List.length_take] at hle
    simp only [step, book, List.take_take]
    rw [Nat.min_eq_left (by omega)]
  | pollFlush =>
    obtain ⟨out, hp, hlog⟩ := s.engine.pollFlush_passed s.inner s.clock
    exact .inl ⟨out, hp, hlog, rfl, rfl⟩
  | pollShutdown =>
    obtain ⟨out, hp, hlog⟩ := s.engine.pollShutdown_passed s.inner s.clock
    exact .inl ⟨out, hp, hlog, rfl, rfl⟩
  | pollDueTermination =>
    exact .inl ⟨[], s.engine.pollDueTermination_passed s.clock, by simp [step], rfl, rfl⟩

theorem Conserved.step {ident : Identity} {plan : FaultPlan} {s : EngineRun τ} (h : Conserved ident plan s) (op : Op) :
    Conserved ident plan (step s op) := by
  obtain ⟨k, hl⟩ := h.lossAt
  rcases step_cases s hl op with ⟨out, hp, hw, ha, hr⟩ | ⟨e₁, data, n, hp, -, hacc, hw, hr, ha⟩
  · exact h.pass hp hw ha hr
  · have h₁ : Conserved ident plan { s with engine := e₁ } := h.pass hp (by simp) rfl rfl
    exact h₁.accept hacc hw ha hr

/-- The invariant rule for runs of an engine. -/
theorem Reached.inv {plan : FaultPlan} {ident : Identity} {s : EngineRun τ} (h : Reached plan ident s)
    (I : EngineRun τ → Prop) (hs : ∀ s op, Conserved ident plan s → I s → I (step s op))
    (h₀ : ∀ handle c₀ io, plan.validate = .ok () →
      I { engine := compile plan ident handle (Clock.now c₀), inner := { io }, clock := c₀.tick }) : I s := by
  obtain ⟨handle, c₀, engine, clock, io, ops, hnew, rfl⟩ := h
  obtain ⟨hv, rfl, rfl⟩ := newWithArcPlan_ok hnew
  have hall := run_inv (fun s => Conserved ident plan s ∧ I s) (fun s op ⟨hc, hi⟩ => ⟨hc.step op, hs s op hc hi⟩)
    ⟨compile_conserved plan ident handle c₀.now io c₀.tick, h₀ handle c₀ io hv⟩ ops
  exact hall.2

theorem Reached.conserved {plan : FaultPlan} {ident : Identity} {s : EngineRun τ} (h : Reached plan ident s) :
    Conserved ident plan s := by
  exact h.inv _ (fun s op hc _ => hc.step op) fun handle c₀ io _ => compile_conserved plan ident handle c₀.now io c₀.tick

/-! ## A concrete run

Stream loss at one half and a limit of three bytes, over a writer that takes one
byte and then stalls. -/

def sampleIdent : Identity := ⟨7, "proxy", 1, .upstream⟩

def sampleLimitId : FaultId := ⟨"limit", by decide, by decide⟩

def samplePlan : FaultPlan where
  faults := [
    ⟨⟨"loss", by decide, by decide⟩, .one, .streamLoss ⟨⟨1 / 2, by norm_num, by norm_num⟩, .zero⟩⟩,
    ⟨sampleLimitId, .one, .limitData ⟨⟨3, by decide, by decide⟩⟩⟩]

def sampleRun (ops : List Op) : EngineRun Script :=
  run step { engine := compile samplePlan sampleIdent .new 0, clock := .still 0
             inner := { io := { writes := [.ready (.ok 1), .pending] } } } ops

theorem sampleRun_reached (ops : List Op) : Reached samplePlan sampleIdent (sampleRun ops) :=
  ⟨.new, .still 0, _, _, _, ops, rfl, rfl⟩

/-! ## Conservation -/

/-- What the writer took, followed by what is queued, is what was accepted less
what was discarded, in order and each byte once; the counters add up; and the
queue keeps its bound. -/
theorem bytes_conserved {plan : FaultPlan} {ident : Identity} {s : EngineRun τ} (h : Reached plan ident s) :
    s.inner.written ++ s.engine.queuedBytes = kept ident plan s.accepted ∧
      (s.accepted.length ≤ u64Max → s.engine.evidence.bytesAccepted =
        s.engine.evidence.bytesForwarded + s.engine.evidence.bytesDiscarded + s.engine.buffered) ∧
      s.engine.buffered = (s.engine.queue.map (·.bytes.length)).sum ∧
      s.engine.buffered ≤ s.engine.highWater ∧ s.engine.highWater ≤ s.engine.maxBuffer := by
  have hc := h.conserved
  refine ⟨hc.bytes, ?_, ?_, hc.low, hc.high⟩
  · intro hfit
    have hlen := congrArg List.length hc.bytes
    rw [List.length_append, ← hc.buffered] at hlen
    have := kept_length_le ident plan s.accepted
    have := exposed_length_le s.accepted
    rw [hc.accepted, hc.forwarded, hc.discarded, clampU64_of_le hfit, clampU64_of_le (by omega),
      clampU64_of_le (by omega)]
    omega
  · rw [hc.buffered, segmentBytes, List.length_flatMap]

theorem bytes_conserved_sample :
    let s := sampleRun [.accept [1, 2], .pollFlush, .accept [3, 4]]
    s.accepted.length = 3 ∧ s.inner.written ++ s.engine.queuedBytes = kept sampleIdent samplePlan s.accepted :=
  ⟨by decide +kernel, (bytes_conserved (sampleRun_reached _)).1⟩

/-! ## Stream loss by offset -/

/-- Without a blackhole nothing is booked as discarded by one. -/
structure Unswallowed (s : EngineRun τ) : Prop where
  blackhole : s.engine.blackhole = none
  accepted : exposed s.accepted = s.accepted.map (·.1)

theorem Unswallowed.step {ident : Identity} {plan : FaultPlan} {s : EngineRun τ} (hc : Conserved ident plan s)
    (h : Unswallowed s) (op : Op) : Unswallowed (EngineRun.step s op) := by
  obtain ⟨k, hl⟩ := hc.lossAt
  rcases step_cases s hl op with ⟨out, hp, hw, ha, hr⟩ | ⟨e₁, data, n, hp, he₁, hacc, hw, hr, ha⟩
  · exact ⟨(congrArg Setup.blackhole hp.setup).trans h.blackhole, by rw [ha]; exact h.accepted⟩
  · have hb₁ : e₁.blackhole = none := (congrArg Setup.blackhole hp.setup).trans h.blackhole
    have hdis : s.engine.discardsAt s.clock = false := by
      simp only [discardsAt, ← he₁, blackholeDiscarding, hb₁]
    refine ⟨(congrArg Setup.blackhole hacc.setup).trans hb₁, ?_⟩
    rw [ha, exposed_append, hdis, h.accepted]
    simp [Function.comp_def]

theorem Reached.unswallowed {plan : FaultPlan} {ident : Identity} {s : EngineRun τ} (h : Reached plan ident s)
    (hno : ∀ fault ∈ plan.faults, ident.swallows fault = false) :
    Unswallowed s := by
  refine h.inv _ (fun s op hc hu => hu.step hc op) fun handle c₀ _ _ => ⟨?_, rfl⟩
  exact compile_unswallowed hno handle c₀.now

/-- The bytes of a stream at offsets whose chunk no stream-loss fault drops. -/
def undropped (ident : Identity) (plan : FaultPlan) (bytes : List Byte) : List Byte :=
  sift (fun n => ident.dropChunk plan (n / streamLossGrainBytes)) 0 bytes

theorem Reached.undropped {plan : FaultPlan} {ident : Identity} {s : EngineRun τ} (h : Reached plan ident s)
    (hno : ∀ fault ∈ plan.faults, ident.swallows fault = false)
    {bytes : List Byte} (hb : s.accepted.map (·.1) = bytes) :
    s.inner.written ++ s.engine.queuedBytes = undropped ident plan bytes ∧
      s.engine.evidence.bytesDiscarded = clampU64 (bytes.length - (undropped ident plan bytes).length) ∧
      s.engine.evidence.streamLossBytesDiscarded =
        clampU64 (bytes.length - (undropped ident plan bytes).length) := by
  have hc := h.conserved
  have hd := hc.discarded
  have hl := hc.lost
  have hw := hc.bytes
  have hlen : s.accepted.length = bytes.length := by rw [← hb, List.length_map]
  rw [kept, (h.unswallowed hno).accepted, hb] at hd hl hw
  rw [hlen] at hd
  exact ⟨hw, hd, hl⟩

/-- The bytes a plan without an active blackhole keeps are those at offsets whose
chunk no active stream-loss fault drops. This is the same for every way of
handing the bytes in and draining them, so two runs that accepted the same bytes
keep the same ones and count the same losses. -/
theorem loss_by_offset {plan : FaultPlan} {ident : Identity} {σ : Type} [AsyncWrite σ] {s : EngineRun τ}
    {s' : EngineRun σ} (h : Reached plan ident s) (h' : Reached plan ident s')
    (hno : ∀ fault ∈ plan.faults, ident.swallows fault = false) :
    s.inner.written ++ s.engine.queuedBytes = undropped ident plan (s.accepted.map (·.1)) ∧
      (s.accepted.map (·.1) = s'.accepted.map (·.1) →
        s.inner.written ++ s.engine.queuedBytes = s'.inner.written ++ s'.engine.queuedBytes ∧
          s.engine.evidence.bytesDiscarded = s'.engine.evidence.bytesDiscarded ∧
          s.engine.evidence.streamLossBytesDiscarded = s'.engine.evidence.streamLossBytesDiscarded) := by
  refine ⟨(h.undropped hno rfl).1, fun heq => ?_⟩
  obtain ⟨hw, hd, hl⟩ := h.undropped hno heq
  obtain ⟨hw', hd', hl'⟩ := h'.undropped hno rfl
  exact ⟨hw.trans hw'.symm, hd.trans hd'.symm, hl.trans hl'.symm⟩

theorem loss_by_offset_sample :
    let s := sampleRun [.accept [1, 2], .pollFlush, .accept [3, 4]]
    let s' := sampleRun [.accept [1], .accept [2, 3, 4]]
    s.accepted.map (·.1) = s'.accepted.map (·.1) ∧
      s.inner.written ++ s.engine.queuedBytes = s'.inner.written ++ s'.engine.queuedBytes :=
  have hsame : (sampleRun [.accept [1, 2], .pollFlush, .accept [3, 4]]).accepted.map (·.1) =
      (sampleRun [.accept [1], .accept [2, 3, 4]]).accepted.map (·.1) := by decide +kernel
  ⟨hsame, ((loss_by_offset (sampleRun_reached _) (sampleRun_reached _) (by simp [samplePlan, Identity.swallows])).2 hsame).1⟩

end EngineRun

end Eggchaos
