import Eggchaos.Association
import Eggchaos.Lib.Runs
/-!
# Fresh evidence

`reap_idle` reads the record of an association, not its engines. The worker
publishes the engines' evidence at the bottom of a turn and emits at the top of
the next, so a turn that emits anything parks with a record that still shows the
emitted datagrams as queued.
-/

namespace Eggchaos
open Lib

/-! ## What is due -/

namespace DatagramDirectionEngine

/-- How many candidates may leave at `now`. -/
def dueCount (e : DatagramDirectionEngine) (now : Nat) : Nat := (e.queue.takeWhile (·.at_ ≤ now)).length

theorem drain_length (now : Nat) (queue : List Candidate) (ev : DatagramEvidence) :
    (drain now queue ev).1.length = (queue.takeWhile (·.at_ ≤ now)).length ∧
      (drain now queue ev).1.length + (drain now queue ev).2.1.length = queue.length := by
  induction queue generalizing ev with
  | nil => exact ⟨rfl, rfl⟩
  | cons c cs ih =>
    simp only [drain, List.takeWhile]
    by_cases h : c.at_ ≤ now
    · obtain ⟨hdue, hall⟩ := ih (ev.noteEmitted c.payload.length)
      simp only [h, if_true, decide_true, List.length_cons]
      generalize drain now cs (ev.noteEmitted c.payload.length) = r at hdue hall ⊢
      obtain ⟨items, rest, ev'⟩ := r
      exact ⟨by rw [← hdue], by simp only at hall ⊢; omega⟩
    · simp [h]

theorem takeReady_length (e : DatagramDirectionEngine) (now : Nat) :
    (e.takeReady now).1.length = e.dueCount now ∧
      (e.takeReady now).1.length + (e.takeReady now).2.queue.length = e.queue.length :=
  drain_length now e.queue e.evidence

theorem drain_none (now : Nat) (queue : List Candidate) (ev : DatagramEvidence)
    (h : (queue.takeWhile (·.at_ ≤ now)).length = 0) : drain now queue ev = ([], queue, ev) := by
  cases queue with
  | nil => rfl
  | cons c cs =>
    by_cases hc : c.at_ ≤ now
    · simp [List.takeWhile, hc] at h
    · simp [drain, hc]

theorem takeReady_none {e : DatagramDirectionEngine} {now : Nat} (h : e.dueCount now = 0) :
    e.takeReady now = ([], e) := by
  simp only [takeReady, drain_none now e.queue e.evidence h]

theorem takeReady_isEmpty (e : DatagramDirectionEngine) (now : Nat) :
    (e.takeReady now).1.isEmpty = decide (e.dueCount now = 0) := by
  rw [← (takeReady_length e now).1]
  cases (e.takeReady now).1 <;> simp

end DatagramDirectionEngine

/-! ## A batch -/

/-- Every datagram of a batch is sent or fails, unless its turn sees the token. -/
theorem sendLoop_spec (io : SendIo) (cancelled : Bool) (ready : List DatagramScheduled) (i : Nat) (b : Batch) :
    ((sendLoop io cancelled i ready b).2.isSome = true ↔
        cancelled = true ∧ ∃ k < ready.length, io.late (i + k) = true) ∧
      ((sendLoop io cancelled i ready b).2 = none → 0 < ready.length ∨ 0 < b.egressDatagrams ∨ 0 < b.sendErrors →
        0 < (sendLoop io cancelled i ready b).1.egressDatagrams ∨ 0 < (sendLoop io cancelled i ready b).1.sendErrors) := by
  have hpos : ∀ n, 0 < satAdd n 1 := by
    intro n
    simp only [satAdd, clampU64, u64Max]
    omega
  induction ready generalizing i b with
  | nil =>
    refine ⟨by simp [sendLoop], fun _ h => ?_⟩
    simpa [sendLoop] using h
  | cons d ds ih =>
    have hsplit : (∃ k < ds.length + 1, io.late (i + k) = true) ↔
        io.late i = true ∨ ∃ k < ds.length, io.late (i + 1 + k) = true := by
      constructor
      · rintro ⟨k, hk, hl⟩
        cases k with
        | zero => exact .inl hl
        | succ k => exact .inr ⟨k, by omega, by rwa [Nat.add_right_comm i 1 k]⟩
      · rintro (hl | ⟨k, hk, hl⟩)
        · exact ⟨0, by omega, hl⟩
        · exact ⟨k + 1, by omega, by rwa [Nat.add_right_comm i 1 k] at hl⟩
    simp only [sendLoop, List.length_cons, hsplit]
    by_cases hstop : (cancelled && io.late i) = true
    · simp only [hstop, if_true]
      simp only [Bool.and_eq_true] at hstop
      simp [hstop.1, hstop.2]
    · have hgo : ∀ b', ((sendLoop io cancelled (i + 1) ds b').2.isSome = true ↔
          cancelled = true ∧ (io.late i = true ∨ ∃ k < ds.length, io.late (i + 1 + k) = true)) := by
        intro b'
        rw [(ih (i + 1) b').1]
        simp only [Bool.and_eq_true] at hstop
        constructor
        · exact fun h => ⟨h.1, .inr h.2⟩
        · rintro ⟨hc, hl | hl⟩
          · exact absurd ⟨hc, hl⟩ hstop
          · exact ⟨hc, hl⟩
      simp only [hstop, Bool.false_eq_true, if_false]
      split
      · exact ⟨hgo _, fun hn _ => (ih (i + 1) _).2 hn (.inr (.inl (hpos _)))⟩
      · exact ⟨hgo _, fun hn _ => (ih (i + 1) _).2 hn (.inr (.inr (hpos _)))⟩

/-- What a batch does to the record. -/
structure Sent (io : SendIo) (cancelled : Bool) (ready : List DatagramScheduled) (r : AssociationRecord) (dirty : Bool)
    (result : Bool × AssociationRecord × Bool) : Prop where
  stops : result.1 = true ↔ cancelled = true ∧ ∃ k < ready.length, io.late k = true
  upstream : result.2.1.upstreamEvidence = r.upstreamEvidence
  downstream : result.2.1.downstreamEvidence = r.downstreamEvidence
  kept : result.1 = false → result.2.1.administrativeDiscards = r.administrativeDiscards
  left : result.1 = true → result.2.1.administrativeDiscards =
    satAdd r.administrativeDiscards (AssociationState.unsent io cancelled ready)
  dirty : result.1 = false → result.2.2 = (dirty || !ready.isEmpty)

theorem sendBatch_sent (io : SendIo) (cancelled : Bool) (ready : List DatagramScheduled) (r : AssociationRecord)
    (dirty : Bool) : Sent io cancelled ready r dirty (sendBatch io cancelled ready r dirty) := by
  obtain ⟨hstop, hpos⟩ := sendLoop_spec io cancelled ready 0 {}
  simp only [Nat.zero_add] at hstop
  have hnil : ready = [] → sendLoop io cancelled 0 ready {} = ({}, none) := by
    rintro rfl
    rfl
  cases hl : sendLoop io cancelled 0 ready {} with
  | mk b left =>
    rw [hl] at hstop hpos hnil
    rw [sendBatch, hl]
    cases left with
    | some left =>
      refine ⟨by simpa using hstop, rfl, rfl, by simp, fun _ => ?_, by simp⟩
      simp [AssociationState.unsent, hl]
    | none =>
      have hno : ¬ (cancelled = true ∧ ∃ k < ready.length, io.late k = true) := fun h => by simpa using hstop.2 h
      by_cases hcount : 0 < b.egressDatagrams ∨ 0 < b.sendErrors
      · simp only [if_pos hcount]
        refine ⟨iff_of_false (by simp) hno, rfl, rfl, fun _ => rfl, by simp, fun _ => ?_⟩
        cases ready with
        | nil =>
          cases hnil rfl
          simp at hcount
        | cons d ds => simp
      · simp only [if_neg hcount]
        refine ⟨iff_of_false (by simp) hno, rfl, rfl, fun _ => rfl, by simp, fun _ => ?_⟩
        cases ready with
        | nil => simp
        | cons d ds => exact absurd (hpos rfl (.inl (by simp))) hcount

namespace AssociationState

/-- `n` of the administrative discards are on the books, and the counter shows
them with the others. -/
def Booked (s : AssociationState) (n : Nat) : Prop :=
  s.record.administrativeDiscards = clampU64 (n + s.otherDiscards)

/-- A set token is seen before one of the first `n` sends. -/
def SeesToken (s : AssociationState) (io : SendIo) (n : Nat) : Prop :=
  s.cancelled = true ∧ ∃ k < n, io.late k = true

instance (s : AssociationState) (io : SendIo) (n : Nat) : Decidable (s.SeesToken io n) :=
  inferInstanceAs (Decidable (_ ∧ _))

/-- A step of the worker that sends: the part of the state it leaves alone, and
what it may do to the record. -/
structure Sends (s s' : AssociationState) : Prop where
  frame : s' = { s with
    upstream := s'.upstream
    downstream := s'.downstream
    record := s'.record
    dirty := s'.dirty
    phase := s'.phase
    admitted := s'.admitted
    otherDiscards := s'.otherDiscards }
  upstream : s'.record.upstreamEvidence = s.record.upstreamEvidence
  downstream : s'.record.downstreamEvidence = s.record.downstreamEvidence
  books : ∀ n, s.Booked n → s'.Booked n

theorem Sends.trans {s s' s'' : AssociationState} (h : s.Sends s') (h' : s'.Sends s'') : s.Sends s'' where
  frame := by
    have hf := h'.frame
    rw [h.frame] at hf
    exact hf
  upstream := h'.upstream.trans h.upstream
  downstream := h'.downstream.trans h.downstream
  books n hn := h'.books n (h.books n hn)

/-- A batch goes on to the next phase, or breaks the loop when it sees the token. -/
theorem sending_spec (s : AssociationState) (io : SendIo) (ready : List DatagramScheduled) (next : WorkerPhase) :
    let s' := s.sending (sendBatch io s.cancelled ready s.record s.dirty) (unsent io s.cancelled ready) next
    s.Sends s' ∧ s'.upstream = s.upstream ∧ s'.downstream = s.downstream ∧ s'.admitted = s.admitted ∧
      ((s'.phase = .broken ∧ s.SeesToken io ready.length) ∨
        (s'.phase = next ∧ ¬ s.SeesToken io ready.length ∧ s'.dirty = (s.dirty || !ready.isEmpty))) := by
  have h := sendBatch_sent io s.cancelled ready s.record s.dirty
  generalize sendBatch io s.cancelled ready s.record s.dirty = result at h
  obtain ⟨stop, record, dirty⟩ := result
  cases stop with
  | true =>
    refine ⟨⟨rfl, h.upstream, h.downstream, ?_⟩, rfl, rfl, rfl, .inl ⟨rfl, h.stops.1 rfl⟩⟩
    intro n hn
    have hleft : record.administrativeDiscards =
        satAdd s.record.administrativeDiscards (unsent io s.cancelled ready) := h.left rfl
    simp only [Booked, sending, if_true] at hn ⊢
    rw [hleft, satAdd_shows hn, Nat.add_assoc]
  | false =>
    have hno : ¬ s.SeesToken io ready.length := fun hs => Bool.false_ne_true (h.stops.2 hs)
    refine ⟨⟨rfl, h.upstream, h.downstream, ?_⟩, rfl, rfl, rfl, .inr ⟨rfl, hno, h.dirty rfl⟩⟩
    intro n hn
    exact (h.kept rfl).trans hn

/-- The sends of a turn that emits at `now` see the token. -/
def TurnSeesToken (s : AssociationState) (now : Nat) (io : TurnIo) : Prop :=
  s.SeesToken io.upstream (s.upstream.dueCount now) ∨ s.SeesToken io.downstream (s.downstream.dueCount now)

instance (s : AssociationState) (now : Nat) (io : TurnIo) : Decidable (s.TurnSeesToken now io) :=
  inferInstanceAs (Decidable (_ ∨ _))

/-- Something may leave at `now`. -/
def Due (s : AssociationState) (now : Nat) : Prop := 0 < s.upstream.dueCount now ∨ 0 < s.downstream.dueCount now

instance (s : AssociationState) (now : Nat) : Decidable (s.Due now) := inferInstanceAs (Decidable (_ ∨ _))

/-- One direction of `emit_ready`. -/
theorem emit_direction (s : AssociationState) (io : SendIo) (e : DatagramDirectionEngine) (now : Nat)
    (hp : s.phase = .parked) :
    let ready := (e.takeReady now).1
    let s' := if ready.isEmpty then s else
      s.sending (sendBatch io s.cancelled ready s.record s.dirty) (unsent io s.cancelled ready) .parked
    s.Sends s' ∧ s'.upstream = s.upstream ∧ s'.downstream = s.downstream ∧ s'.admitted = s.admitted ∧
      ((s'.phase = .broken ∧ s.SeesToken io (e.dueCount now)) ∨
        (s'.phase = .parked ∧ ¬ s.SeesToken io (e.dueCount now) ∧ s'.dirty = (s.dirty || decide (0 < e.dueCount now)))) := by
  intro ready s'
  have hlen : ready.length = e.dueCount now := (e.takeReady_length now).1
  have hempty : ready.isEmpty = decide (e.dueCount now = 0) := e.takeReady_isEmpty now
  by_cases hdue : e.dueCount now = 0
  · have hs' : s' = s := if_pos (by rw [hempty]; exact decide_eq_true hdue)
    rw [hs', hdue]
    refine ⟨⟨rfl, rfl, rfl, fun n hn => hn⟩, rfl, rfl, rfl, .inr ⟨hp, ?_, by simp⟩⟩
    rintro ⟨-, k, hk, -⟩
    exact absurd hk (Nat.not_lt_zero k)
  · have hs' : s' = s.sending (sendBatch io s.cancelled ready s.record s.dirty) (unsent io s.cancelled ready) .parked :=
      if_neg (by rw [hempty]; simp [hdue])
    have h := sending_spec s io ready .parked
    simp only [← hs', hlen, hempty] at h
    obtain ⟨hsends, hu, hd, ha, hout⟩ := h
    refine ⟨hsends, hu, hd, ha, hout.imp_right ?_⟩
    rintro ⟨hphase, hno, hdirty⟩
    refine ⟨hphase, hno, ?_⟩
    rw [hdirty, decide_eq_false hdue, decide_eq_true (Nat.pos_of_ne_zero hdue)]
    rfl

theorem emitUpstream_spec (s : AssociationState) (now : Nat) (io : TurnIo) :
    s.Sends (s.emitUpstream now io) ∧ (s.emitUpstream now io).admitted = s.admitted ∧
      (s.emitUpstream now io).upstream = (s.upstream.takeReady now).2 ∧
      (s.emitUpstream now io).downstream = s.downstream ∧
      (((s.emitUpstream now io).phase = .broken ∧ s.SeesToken io.upstream (s.upstream.dueCount now)) ∨
        ((s.emitUpstream now io).phase = .parked ∧ ¬ s.SeesToken io.upstream (s.upstream.dueCount now) ∧
          (s.emitUpstream now io).dirty = decide (0 < s.upstream.dueCount now))) := by
  have h₀ : s.Sends { s with upstream := (s.upstream.takeReady now).2, dirty := false, phase := .parked } :=
    ⟨rfl, rfl, rfl, fun n hn => hn⟩
  obtain ⟨h, hu, hd, ha, hout⟩ := emit_direction
    { s with upstream := (s.upstream.takeReady now).2, dirty := false, phase := .parked } io.upstream s.upstream now rfl
  exact ⟨h₀.trans h, ha, hu, hd, hout⟩

theorem emitDownstream_spec (s : AssociationState) (now : Nat) (io : TurnIo) (hp : s.phase = .parked) :
    s.Sends (s.emitDownstream now io) ∧ (s.emitDownstream now io).admitted = s.admitted ∧
      (s.emitDownstream now io).upstream = s.upstream ∧
      (s.emitDownstream now io).downstream = (s.downstream.takeReady now).2 ∧
      (((s.emitDownstream now io).phase = .broken ∧ s.SeesToken io.downstream (s.downstream.dueCount now)) ∨
        ((s.emitDownstream now io).phase = .parked ∧ ¬ s.SeesToken io.downstream (s.downstream.dueCount now) ∧
          (s.emitDownstream now io).dirty = (s.dirty || decide (0 < s.downstream.dueCount now)))) := by
  have h₀ : s.Sends { s with downstream := (s.downstream.takeReady now).2 } := ⟨rfl, rfl, rfl, fun n hn => hn⟩
  obtain ⟨h, hu, hd, ha, hout⟩ := emit_direction
    { s with downstream := (s.downstream.takeReady now).2 } io.downstream s.downstream now hp
  exact ⟨h₀.trans h, ha, hu, hd, hout⟩

/-- The top of a turn: it parks having emitted what is due, or a send saw the
token. -/
theorem emitReady_spec (s : AssociationState) (now : Nat) (io : TurnIo) :
    s.Sends (s.emitReady now io) ∧ (s.emitReady now io).admitted = s.admitted ∧
      (s.emitReady now io).upstream = (s.upstream.takeReady now).2 ∧
      (((s.emitReady now io).phase = .broken ∧ s.TurnSeesToken now io ∧
          ((s.emitReady now io).downstream = s.downstream ∨
            (s.emitReady now io).downstream = (s.downstream.takeReady now).2)) ∨
        ((s.emitReady now io).phase = .parked ∧ ¬ s.TurnSeesToken now io ∧
          (s.emitReady now io).downstream = (s.downstream.takeReady now).2 ∧
          (s.emitReady now io).dirty = decide (s.Due now))) := by
  obtain ⟨h₁, ha₁, hu₁, hd₁, hout₁⟩ := emitUpstream_spec s now io
  simp only [emitReady]
  generalize s.emitUpstream now io = s₁ at h₁ hu₁ hd₁ ha₁ hout₁ ⊢
  rcases hout₁ with ⟨hp₁, hseen⟩ | ⟨hp₁, hunseen, hdirty₁⟩
  · rw [hp₁]
    exact ⟨h₁, ha₁, hu₁, .inl ⟨hp₁, .inl hseen, .inl hd₁⟩⟩
  · rw [hp₁]
    obtain ⟨h₂, ha₂, hu₂, hd₂, hout₂⟩ := emitDownstream_spec s₁ now io hp₁
    have hcancel : s₁.cancelled = s.cancelled := by rw [h₁.frame]
    have hsees : ∀ n, s₁.SeesToken io.downstream n ↔ s.SeesToken io.downstream n := by
      intro n
      simp only [SeesToken, hcancel]
    simp only [hsees, hd₁, hdirty₁] at hd₂ hout₂
    refine ⟨h₁.trans h₂, ha₂.trans ha₁, hu₂.trans hu₁, hout₂.imp ?_ ?_⟩
    · rintro ⟨hp₂, hseen⟩
      exact ⟨hp₂, .inr hseen, .inr hd₂⟩
    · rintro ⟨hp₂, hno, hdirty₂⟩
      refine ⟨hp₂, ?_, hd₂, ?_⟩
      · rintro (h | h)
        · exact hunseen h
        · exact hno h
      · rw [hdirty₂, Bool.eq_iff_iff]
        simp only [Bool.or_eq_true, decide_eq_true_eq]
        exact Iff.rfl

theorem admittedUpstream_spec (s : AssociationState) (item : Ingress) (now : Nat) (io : TurnIo) :
    s.Sends (s.admittedUpstream item now io) ∧
      (s.admittedUpstream item now io).upstream = (s.upstream.admitDatagram now item.payload item.policy).2 ∧
      (s.admittedUpstream item now io).downstream = s.downstream ∧
      (s.admittedUpstream item now io).admitted = s.admitted ++ [item] ∧
      (((s.admittedUpstream item now io).phase = .broken ∧ s.cancelled = true) ∨
        (s.admittedUpstream item now io).phase = .noting) := by
  simp only [admittedUpstream]
  generalize s.upstream.admitDatagram now item.payload item.policy = r
  obtain ⟨admission, upstream⟩ := r
  have h₀ : s.Sends { s with upstream, admitted := s.admitted ++ [item], phase := .noting } :=
    ⟨rfl, rfl, rfl, fun n hn => hn⟩
  cases admission with
  | consumed | queued => exact ⟨h₀, rfl, rfl, rfl, .inr rfl⟩
  | immediate ready =>
    obtain ⟨h, hu, hd, ha, hout⟩ := sending_spec
      { s with upstream, admitted := s.admitted ++ [item], phase := .noting } io.upstream ready .noting
    exact ⟨h₀.trans h, hu, hd, ha, hout.imp (fun h => ⟨h.1, h.2.1⟩) (fun h => h.1)⟩

theorem admittedDownstream_spec (s : AssociationState) (payload : List Byte) (now : Nat)
    (policy : PublishedDatagramPolicy) (io : TurnIo) :
    s.Sends (s.admittedDownstream payload now policy io) ∧
      (s.admittedDownstream payload now policy io).downstream = (s.downstream.admitDatagram now payload policy).2 ∧
      (s.admittedDownstream payload now policy io).upstream = s.upstream ∧
      (s.admittedDownstream payload now policy io).admitted = s.admitted ∧
      (((s.admittedDownstream payload now policy io).phase = .broken ∧ s.cancelled = true) ∨
        (s.admittedDownstream payload now policy io).phase = .noting) := by
  simp only [admittedDownstream]
  generalize s.downstream.admitDatagram now payload policy = r
  obtain ⟨admission, downstream⟩ := r
  have h₀ : s.Sends { s with downstream, phase := .noting } := ⟨rfl, rfl, rfl, fun n hn => hn⟩
  cases admission with
  | consumed | queued => exact ⟨h₀, rfl, rfl, rfl, .inr rfl⟩
  | immediate ready =>
    obtain ⟨h, hu, hd, ha, hout⟩ := sending_spec { s with downstream, phase := .noting } io.downstream ready .noting
    exact ⟨h₀.trans h, hd, hu, ha, hout.imp (fun h => ⟨h.1, h.2.1⟩) (fun h => h.1)⟩

/-! ## Steps beside the worker -/

/-- The steps of `association_loop`. -/
def OfWorker : AssociationOp → Prop
  | .emit _ _ | .wake _ | .retire | .admission _ _ _ | .note _ | .update | .count | .close | .finish => True
  | _ => False

/-- What the worker has, and the evidence it published. -/
structure SameWorker (s s' : AssociationState) : Prop where
  phase : s'.phase = s.phase
  upstream : s'.upstream = s.upstream
  downstream : s'.downstream = s.downstream
  dirty : s'.dirty = s.dirty
  upstreamEvidence : s'.record.upstreamEvidence = s.record.upstreamEvidence
  downstreamEvidence : s'.record.downstreamEvidence = s.record.downstreamEvidence
  admitted : s'.admitted = s.admitted
  discarded : s'.discarded = s.discarded

theorem SameWorker.refl (s : AssociationState) : s.SameWorker s := ⟨rfl, rfl, rfl, rfl, rfl, rfl, rfl, rfl⟩

theorem step_sameWorker {s : AssociationState} {op : AssociationOp} (h : ¬ OfWorker op) : s.SameWorker (s.step op) := by
  cases op with
  | emit | wake | retire | admission | note | update | count | close | finish => exact absurd trivial h
  | publish kept =>
    simp only [step]
    split
    · split <;> exact ⟨rfl, rfl, rfl, rfl, rfl, rfl, rfl, rfl⟩
    · exact .refl s
  | receive payload now =>
    simp only [step, receive]
    split
    · split <;> exact ⟨rfl, rfl, rfl, rfl, rfl, rfl, rfl, rfl⟩
    · exact .refl s
  | announce i policy granted now =>
    simp only [step, announce]
    split
    · split <;> exact ⟨rfl, rfl, rfl, rfl, rfl, rfl, rfl, rfl⟩
    · exact .refl s
  | trySend i =>
    simp only [step, trySend]
    split
    · split
      · exact ⟨rfl, rfl, rfl, rfl, rfl, rfl, rfl, rfl⟩
      · split <;> exact ⟨rfl, rfl, rfl, rfl, rfl, rfl, rfl, rfl⟩
    · exact .refl s
  | noteSent i now =>
    simp only [step, noteSent]
    split
    · exact ⟨rfl, rfl, rfl, rfl, rfl, rfl, rfl, rfl⟩
    · exact .refl s
  | retract i =>
    simp only [step, retract]
    split
    · exact ⟨rfl, rfl, rfl, rfl, rfl, rfl, rfl, rfl⟩
    · exact .refl s
  | noteRefused i now =>
    simp only [step, noteRefused]
    split
    · split <;> exact ⟨rfl, rfl, rfl, rfl, rfl, rfl, rfl, rfl⟩
    · exact .refl s
  | check now idleTimeout =>
    simp only [step]
    split <;> exact ⟨rfl, rfl, rfl, rfl, rfl, rfl, rfl, rfl⟩
  | reap =>
    simp only [step, takeSlot]
    split
    · split <;> exact ⟨rfl, rfl, rfl, rfl, rfl, rfl, rfl, rfl⟩
    · exact .refl s
  | remove =>
    simp only [step, takeSlot]
    split <;> exact ⟨rfl, rfl, rfl, rfl, rfl, rfl, rfl, rfl⟩
  | mark =>
    simp only [step]
    split <;> exact ⟨rfl, rfl, rfl, rfl, rfl, rfl, rfl, rfl⟩
  | cancel =>
    simp only [step]
    split <;> exact ⟨rfl, rfl, rfl, rfl, rfl, rfl, rfl, rfl⟩

/-! ## Published evidence -/

/-- The record shows what the engines show. -/
def Fresh (s : AssociationState) : Prop :=
  s.record.upstreamEvidence = s.upstream.evidence ∧ s.record.downstreamEvidence = s.downstream.evidence

/-- The record shows a queued datagram that has left. -/
def Lags (s : AssociationState) : Prop :=
  s.upstream.evidence.queuedDatagrams < s.record.upstreamEvidence.queuedDatagrams ∨
    s.downstream.evidence.queuedDatagrams < s.record.downstreamEvidence.queuedDatagrams

/-- No queued datagram is missing from the record. -/
def Shown (s : AssociationState) : Prop :=
  s.upstream.queue.length ≤ s.record.upstreamEvidence.queuedDatagrams ∧
    s.downstream.queue.length ≤ s.record.downstreamEvidence.queuedDatagrams

theorem Lags.not_fresh {s : AssociationState} (h : s.Lags) : ¬ s.Fresh := by
  rintro ⟨hu, hd⟩
  rcases h with h | h
  · exact absurd (congrArg DatagramEvidence.queuedDatagrams hu) (Nat.ne_of_gt h)
  · exact absurd (congrArg DatagramEvidence.queuedDatagrams hd) (Nat.ne_of_gt h)

/-- What holds of the evidence at every point of the loop. A turn starts fresh;
when it parks it is fresh unless it emitted, and then it lags. -/
structure Evident (limits : DatagramQueueLimits) (s : AssociationState) : Prop where
  upstream : ∃ held, s.upstream.Sound limits held
  downstream : ∃ held, s.downstream.Sound limits held
  top : s.phase = .top → s.Fresh
  clean : s.phase = .parked ∨ s.phase = .bottom → s.dirty = false → s.Fresh
  lags : s.phase = .parked → s.dirty = true → s.Lags
  shown : s.phase = .parked ∨ s.phase = .arrived none → s.Shown

section

variable {limits : DatagramQueueLimits} {s s' : AssociationState}

theorem Evident.same (h : s.Evident limits) (hw : s.SameWorker s') : s'.Evident limits := by
  obtain ⟨hp, hu, hd, hdirty, hue, hde, -, -⟩ := hw
  refine ⟨hu ▸ h.upstream, hd ▸ h.downstream, ?_, ?_, ?_, ?_⟩
  · simpa only [Fresh, hp, hu, hd, hue, hde] using h.top
  · simpa only [Fresh, hp, hu, hd, hue, hde, hdirty] using h.clean
  · simpa only [Lags, hp, hu, hd, hue, hde, hdirty] using h.lags
  · simpa only [Shown, hp, hu, hd, hue, hde] using h.shown

theorem Evident.queued_upstream (h : s.Evident limits) : s.upstream.evidence.queuedDatagrams = s.upstream.queue.length := by
  obtain ⟨held, hs⟩ := h.upstream
  exact hs.room.datagrams

theorem Evident.queued_downstream (h : s.Evident limits) :
    s.downstream.evidence.queuedDatagrams = s.downstream.queue.length := by
  obtain ⟨held, hs⟩ := h.downstream
  exact hs.room.datagrams

theorem Evident.shown_of_fresh (h : s.Evident limits) (hf : s.Fresh) : s.Shown :=
  ⟨by rw [hf.1, h.queued_upstream], by rw [hf.2, h.queued_downstream]⟩

/-- Outside the loop's waits only the engines' own books matter. -/
theorem Evident.of_engines (hu : ∃ held, s.upstream.Sound limits held) (hd : ∃ held, s.downstream.Sound limits held)
    (htop : s.phase ≠ .top) (hparked : s.phase ≠ .parked) (hnone : s.phase ≠ .arrived none)
    (hbottom : s.phase = .bottom → s.dirty = true) : s.Evident limits where
  upstream := hu
  downstream := hd
  top hp := absurd hp htop
  clean hp hclean := by
    rcases hp with hp | hp
    · exact absurd hp hparked
    · rw [hbottom hp] at hclean
      cases hclean
  lags hp := absurd hp hparked
  shown hp := by
    rcases hp with hp | hp
    · exact absurd hp hparked
    · exact absurd hp hnone

theorem emit_evident (h : s.Evident limits) (hp : s.phase = .top) (now : Nat) (io : TurnIo) :
    (s.emitReady now io).Evident limits := by
  obtain ⟨hsends, -, hu, hout⟩ := emitReady_spec s now io
  obtain ⟨hfu, hfd⟩ := h.top hp
  obtain ⟨heldu, hsu⟩ := h.upstream
  obtain ⟨heldd, hsd⟩ := h.downstream
  have hsu' := DatagramDirectionEngine.takeReady_sound hsu now
  have hsd' := DatagramDirectionEngine.takeReady_sound hsd now
  have hru := hsends.upstream
  have hrd := hsends.downstream
  generalize s.emitReady now io = s' at *
  rcases hout with ⟨hp', -, hd | hd⟩ | ⟨hp', -, hd, hdirty⟩
  · exact .of_engines ⟨heldu, hu ▸ hsu'⟩ ⟨heldd, hd ▸ hsd⟩ (by simp [hp']) (by simp [hp']) (by simp [hp']) (by simp [hp'])
  · exact .of_engines ⟨heldu, hu ▸ hsu'⟩ ⟨heldd, hd ▸ hsd'⟩ (by simp [hp']) (by simp [hp']) (by simp [hp']) (by simp [hp'])
  · have hlu := s.upstream.takeReady_length now
    have hld := s.downstream.takeReady_length now
    have hqu : s'.upstream.evidence.queuedDatagrams = s'.upstream.queue.length := by rw [hu]; exact hsu'.room.datagrams
    have hqd : s'.downstream.evidence.queuedDatagrams = s'.downstream.queue.length := by rw [hd]; exact hsd'.room.datagrams
    have heu : s'.record.upstreamEvidence.queuedDatagrams = s.upstream.queue.length := by
      rw [hru, hfu]
      exact hsu.room.datagrams
    have hed : s'.record.downstreamEvidence.queuedDatagrams = s.downstream.queue.length := by
      rw [hrd, hfd]
      exact hsd.room.datagrams
    rw [← hu] at hlu
    rw [← hd] at hld
    refine ⟨⟨heldu, hu ▸ hsu'⟩, ⟨heldd, hd ▸ hsd'⟩, by simp [hp'], ?_, ?_, ?_⟩
    · intro _ hclean
      rw [hdirty, decide_eq_false_iff_not, Due, not_or] at hclean
      rw [DatagramDirectionEngine.takeReady_none (Nat.eq_zero_of_not_pos hclean.1)] at hu
      rw [DatagramDirectionEngine.takeReady_none (Nat.eq_zero_of_not_pos hclean.2)] at hd
      exact ⟨by rw [hru, hfu, hu], by rw [hrd, hfd, hd]⟩
    · intro _ hset
      rw [hdirty, decide_eq_true_eq] at hset
      refine hset.imp ?_ ?_
      · intro hpos
        omega
      · intro hpos
        omega
    · intro _
      exact ⟨by omega, by omega⟩

theorem wake_evident (h : s.Evident limits) (hp : s.phase = .parked) (event : Wake) : (s.wake event).Evident limits := by
  cases event with
  | cancelled =>
    simp only [wake]
    split
    · exact .of_engines h.upstream h.downstream nofun nofun nofun nofun
    · exact h
  | ingress =>
    simp only [wake]
    split
    · exact .of_engines h.upstream h.downstream nofun nofun nofun nofun
    · exact h
  | received datagram =>
    refine ⟨h.upstream, h.downstream, nofun, ?_, nofun, ?_⟩
    · rintro (hp' | hp') <;> cases hp'
    · intro _
      exact h.shown (.inl hp)
  | deadline now =>
    simp only [wake]
    split
    · split
      · refine ⟨h.upstream, h.downstream, nofun, fun _ hclean => h.clean (.inl hp) hclean, nofun, ?_⟩
        rintro (hp' | hp') <;> cases hp'
      · exact h
    · exact h

theorem admission_evident (h : s.Evident limits) (now : Nat) (policy : PublishedDatagramPolicy) (io : TurnIo) :
    (s.admission now policy io).Evident limits := by
  obtain ⟨heldu, hsu⟩ := h.upstream
  obtain ⟨heldd, hsd⟩ := h.downstream
  simp only [admission]
  split
  · next item hp =>
    obtain ⟨-, hu, hd, -, hout⟩ := admittedUpstream_spec s item now io
    have hsu' := DatagramDirectionEngine.admitDatagram_sound hsu now item.payload item.policy
    refine .of_engines ⟨heldu, hu ▸ hsu'⟩ ⟨heldd, hd ▸ hsd⟩ ?_ ?_ ?_ ?_ <;> rcases hout with hout | hout <;> simp [hout]
  · next payload hp =>
    split
    · exact .of_engines h.upstream h.downstream nofun nofun nofun fun _ => rfl
    · obtain ⟨-, hd, hu, -, hout⟩ := admittedDownstream_spec s payload now policy io
      have hsd' := DatagramDirectionEngine.admitDatagram_sound hsd now payload policy
      refine .of_engines ⟨heldu, hu ▸ hsu⟩ ⟨heldd, hd ▸ hsd'⟩ ?_ ?_ ?_ ?_ <;> rcases hout with hout | hout <;> simp [hout]
  · exact .of_engines h.upstream h.downstream nofun nofun nofun fun _ => rfl
  · exact h

theorem step_evident (s : AssociationState) (op : AssociationOp) (h : s.Evident limits) : (s.step op).Evident limits := by
  cases op with
  | emit now io =>
    simp only [step]
    split
    · next hp => exact emit_evident h hp now io
    · exact h
  | wake event =>
    simp only [step]
    split
    · next hp => exact wake_evident h hp event
    · exact h
  | retire =>
    simp only [step]
    split
    · exact .of_engines h.upstream h.downstream nofun nofun nofun nofun
    · exact h
  | admission now policy io => exact admission_evident h now policy io
  | note now =>
    simp only [step]
    split
    · exact .of_engines h.upstream h.downstream nofun nofun nofun fun _ => rfl
    · exact h
  | update =>
    simp only [step]
    split
    · next hp =>
      refine ⟨h.upstream, h.downstream, fun _ => ?_, ?_, nofun, ?_⟩
      · split
        · exact ⟨rfl, rfl⟩
        · next hclean => exact h.clean (.inr hp) (by simpa using hclean)
      · rintro (hp' | hp') <;> cases hp'
      · rintro (hp' | hp') <;> cases hp'
    · exact h
  | count =>
    simp only [step]
    split
    · obtain ⟨heldu, hsu⟩ := h.upstream
      obtain ⟨heldd, hsd⟩ := h.downstream
      exact .of_engines ⟨_, DatagramDirectionEngine.discardAll_sound hsu⟩ ⟨_, DatagramDirectionEngine.discardAll_sound hsd⟩
        nofun nofun nofun nofun
    · exact h
  | close =>
    simp only [step, close]
    split
    · split <;> exact .of_engines h.upstream h.downstream nofun nofun nofun nofun
    · exact h
  | finish =>
    simp only [step]
    split
    · exact .of_engines h.upstream h.downstream nofun nofun nofun nofun
    · exact h
  | _ => exact h.same (step_sameWorker (by exact id))

end

theorem start_evident {limits : DatagramQueueLimits} {upstream downstream : DatagramDirectionEngine} {proxy : String}
    {association : UInt64} (hu : DatagramDirectionEngine.new limits proxy association .upstream = .ok upstream)
    (hd : DatagramDirectionEngine.new limits proxy association .downstream = .ok downstream) (capacity now : Nat) :
    (start capacity upstream downstream now).Evident limits := by
  refine ⟨⟨0, DatagramDirectionEngine.new_sound hu⟩, ⟨0, DatagramDirectionEngine.new_sound hd⟩, fun _ => ?_, ?_, by simp [start], ?_⟩
  · exact ⟨(DatagramDirectionEngine.new_evidence hu).symm, (DatagramDirectionEngine.new_evidence hd).symm⟩
  · rintro (hp | hp) <;> cases hp
  · rintro (hp | hp) <;> cases hp

/-- A wait in which the record can be trusted: it shows the engines' evidence,
and once nothing is queued or pending the association is due for expiry as soon
as its idle time is over. -/
def Trusted (s : AssociationState) : Prop :=
  s.phase = .parked → s.Fresh ∧
    ∀ now idleTimeout, s.upstream.queue = [] → s.downstream.queue = [] → s.pendingIngress = 0 →
      idleTimeout ≤ now - s.record.lastActivity → s.record.expired s.pendingIngress now idleTimeout = true

/-- The turn parks right after it has emitted: something is due when it reads
the clock, and no send sees the token. -/
def ParksStale (s : AssociationState) : AssociationOp → Prop
  | .emit now io => s.phase = .top ∧ s.Due now ∧ ¬ s.TurnSeesToken now io
  | _ => False

theorem trusted_iff {limits : DatagramQueueLimits} {s : AssociationState} (h : s.Evident limits) :
    s.Trusted ↔ (s.phase = .parked → s.Fresh) := by
  refine ⟨fun ht hp => (ht hp).1, fun hf hp => ⟨hf hp, ?_⟩⟩
  intro now idleTimeout hu hd hpending hidle
  obtain ⟨hfu, hfd⟩ := hf hp
  have hqu : s.upstream.evidence.queuedDatagrams = 0 := by rw [h.queued_upstream, hu]; rfl
  have hqd : s.downstream.evidence.queuedDatagrams = 0 := by rw [h.queued_downstream, hd]; rfl
  simp only [AssociationRecord.expired, hfu, hfd, hqu, hqd, hpending, hidle]
  decide

/-- Only the top of a turn parks the worker. -/
theorem step_parked {s : AssociationState} {op : AssociationOp} (h : (s.step op).phase = .parked) :
    (∃ now io, op = .emit now io ∧ s.phase = .top) ∨ s.SameWorker (s.step op) := by
  cases op with
  | emit now io =>
    simp only [step]
    split
    · next hp => exact .inl ⟨now, io, rfl, hp⟩
    · exact .inr (.refl s)
  | wake event =>
    right
    simp only [step] at h ⊢
    split at h
    · cases event with
      | cancelled =>
        simp only [wake] at h ⊢
        split at h
        · cases h
        · next hc => simp only [hc, Bool.false_eq_true, if_false]; exact .refl s
      | ingress =>
        simp only [wake] at h ⊢
        split at h
        · cases h
        · exact .refl s
      | received datagram => cases h
      | deadline now =>
        simp only [wake] at h ⊢
        split at h
        · split at h
          · cases h
          · next hd => simp only [hd, if_false]; exact .refl s
        · exact .refl s
    · exact .refl s
  | retire | note | update | count | finish =>
    right
    simp only [step] at h ⊢
    split at h
    · cases h
    · exact .refl s
  | close =>
    right
    simp only [step, close] at h ⊢
    split at h
    · split at h <;> cases h
    · exact .refl s
  | admission now policy io =>
    right
    simp only [step, admission] at h ⊢
    split at h
    · next item hp =>
      obtain ⟨-, -, -, -, hout⟩ := admittedUpstream_spec s item now io
      rcases hout with ⟨hout, -⟩ | hout <;> rw [h] at hout <;> cases hout
    · next payload hp =>
      split at h
      · cases h
      · obtain ⟨-, -, -, -, hout⟩ := admittedDownstream_spec s payload now policy io
        rcases hout with ⟨hout, -⟩ | hout <;> rw [h] at hout <;> cases hout
    · cases h
    · exact .refl s
  | _ => exact .inr (step_sameWorker (by exact id))

/-- A step of the worker keeps its waits trusted exactly if it does not park
right after an emission. -/
theorem step_trusted {limits : DatagramQueueLimits} (s : AssociationState) (op : AssociationOp) (ht : s.Trusted)
    (h : s.Evident limits) : (s.step op).Trusted ↔ ¬ s.ParksStale op := by
  have h' := step_evident s op h
  rw [trusted_iff h']
  rw [trusted_iff h] at ht
  constructor
  · intro hf
    cases op with
    | emit now io =>
      rintro ⟨hp, hdue, hno⟩
      obtain ⟨-, -, -, hout⟩ := emitReady_spec s now io
      simp only [step, hp] at hf h'
      rcases hout with ⟨-, hseen, -⟩ | ⟨hp', -, -, hdirty⟩
      · exact hno hseen
      · exact (h'.lags hp' (by rw [hdirty]; exact decide_eq_true hdue)).not_fresh (hf hp')
    | _ => exact id
  · intro hslip hp'
    rcases step_parked hp' with ⟨now, io, rfl, hp⟩ | hw
    · obtain ⟨-, -, -, hout⟩ := emitReady_spec s now io
      have hstep : s.step (.emit now io) = s.emitReady now io := by simp only [step, hp]
      rw [hstep] at h' hp' ⊢
      rcases hout with ⟨hp'', -⟩ | ⟨-, hno, -, hdirty⟩
      · rw [hp'] at hp''
        cases hp''
      · refine h'.clean (.inl hp') ?_
        rw [hdirty]
        exact decide_eq_false fun hdue => hslip ⟨hp, hdue, hno⟩
    · have hf := ht (hw.phase ▸ hp')
      exact ⟨by rw [hw.upstreamEvidence, hw.upstream]; exact hf.1, by rw [hw.downstreamEvidence, hw.downstream]; exact hf.2⟩

/-- Every wait of the worker finds the record fresh, and a drained association
due for expiry, exactly in the runs where no turn parks right after an emission. -/
theorem evidence_fresh_iff (limits : DatagramQueueLimits) (proxy : String) (association : UInt64)
    (upstream downstream : DatagramDirectionEngine)
    (hu : DatagramDirectionEngine.new limits proxy association .upstream = .ok upstream)
    (hd : DatagramDirectionEngine.new limits proxy association .downstream = .ok downstream)
    (capacity now : Nat) (ops : List AssociationOp) :
    (∀ pre, pre <+: ops → (run step (start capacity upstream downstream now) pre).Trusted) ↔
      Along step (fun s op => ¬ s.ParksStale op) (start capacity upstream downstream now) ops := by
  have htop : (start capacity upstream downstream now).Trusted := by
    intro hp
    cases hp
  exact prefixes_iff_along step_evident step_trusted htop (start_evident hu hd capacity now) ops

/-- Sockets that take everything, and a token nobody sees. -/
def calm : TurnIo := ⟨⟨fun _ => false, fun _ => true⟩, ⟨fun _ => false, fun _ => true⟩⟩

/-- A client's datagram until the worker has admitted it and published. -/
def oneDatagram (policy : PublishedDatagramPolicy) : List AssociationOp :=
  [.publish true, .emit 0 calm, .receive [1, 2, 3] 0, .announce 0 policy true 0, .trySend 0, .noteSent 0 0,
    .wake .ingress, .retire, .admission 0 policy calm, .note 0, .update]

def pairDownstream : DatagramDirectionEngine := { pairEngine with direction := .downstream }

/-- A policy without faults. -/
def passing : PublishedDatagramPolicy := ⟨1, ⟨[]⟩, 7, one_le_u64Max, by decide⟩

instance (phase : WorkerPhase) : Decidable (phase = .top) :=
  match phase with
  | .top => .isTrue rfl
  | .parked | .taken _ | .admitting _ | .arrived _ | .noting | .bottom | .broken | .counted _ _ | .recorded | .ended =>
    .isFalse nofun

instance (s : AssociationState) : (op : AssociationOp) → Decidable (s.ParksStale op)
  | .emit now io => inferInstanceAs (Decidable (s.phase = .top ∧ s.Due now ∧ ¬ s.TurnSeesToken now io))
  | .publish _ | .receive _ _ | .announce _ _ _ _ | .trySend _ | .noteSent _ _ | .retract _ | .noteRefused _ _ | .wake _
  | .retire | .admission _ _ _ | .note _ | .update | .count | .close | .finish | .check _ _ | .reap | .remove | .mark
  | .cancel => .isFalse id

/-- A datagram that leaves at once is in the record when the worker parks again. -/
theorem evidence_fresh_immediate :
    let s := run step (start 4 pairEngine pairDownstream 0) (oneDatagram passing ++ [.emit 1 calm])
    s.record.upstreamEvidence.emittedDatagrams = 1 ∧ s.Trusted := by
  refine ⟨by decide, ?_⟩
  exact (evidence_fresh_iff pairLimits "dns" 1 pairEngine pairDownstream rfl rfl 4 0 _).2
    (by decide) _ List.prefix_rfl

/-- Two delayed copies leave when their second is over, and the worker parks. Its
record shows both as queued, so no reaper finds the association idle, however
long nothing happens. -/
theorem emission_parks_stale :
    let s := run step (start 4 pairEngine pairDownstream 0)
      (oneDatagram delayedCopies ++ [.emit 0 calm, .wake (.deadline 1000000000), .update, .emit 1000000000 calm])
    s.upstream.queue = [] ∧ s.downstream.queue = [] ∧ s.pendingIngress = 0 ∧
      s.record.upstreamEvidence.queuedDatagrams = 2 ∧ ¬ s.Trusted ∧
      ∀ now idleTimeout, s.record.expired s.pendingIngress now idleTimeout = false := by
  intro s
  have hqueued : s.record.upstreamEvidence.queuedDatagrams = 2 := by decide
  have hempty : s.upstream.queue = [] := by decide
  refine ⟨hempty, by decide, by decide, hqueued, ?_, ?_⟩
  · intro ht
    have hfresh := (ht rfl).1.1
    have hnone : s.upstream.evidence.queuedDatagrams = 0 := by decide
    rw [← hfresh, hqueued] at hnone
    cases hnone
  · intro now idleTimeout
    simp [AssociationRecord.expired, hqueued]

end AssociationState

end Eggchaos
