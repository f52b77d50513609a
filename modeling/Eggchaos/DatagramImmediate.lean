import Eggchaos.DatagramRuns
/-!
# The immediate path against queue-then-drain

When the scheduler is empty and no candidate of a datagram is delayed, `admit`
emits the candidates at once instead of queueing and draining them.
`queueThenDrain` is the path it replaces. Both emit the same items in the same
order: the copies of one datagram have distinct indices (`Distinct`), so sorting
the items gives the queue's order.

The evidence differs in the two peaks. The immediate path counts its candidates
one at a time and the queue holds them together, so a datagram that survives as
several copies leaves a lower peak unless the peak was as high already.
-/

namespace Eggchaos
open Lib

namespace DatagramDirectionEngine

/-! ## The copies of a datagram -/

/-- What one stage leaves of one copy, by its activation draw: nothing, the copy
or the copy and its duplicates; and the next copy index. -/
def copiesOf (e : DatagramDirectionEngine) (policy : PublishedDatagramPolicy) (ordinal stage : Nat)
    (fault : DatagramFaultSpec) (nextCopy copy : Nat) : List Nat × Nat :=
  if (e.activates policy ordinal stage fault copy).1 then
    match fault.kind with
    | .loss => ([], nextCopy)
    | .duplicate additionalCopies =>
      (copy :: duplicates nextCopy additionalCopies.toNat, indexAfter nextCopy additionalCopies.toNat)
    | _ => ([copy], nextCopy)
  else ([copy], nextCopy)

def stageCopies (e : DatagramDirectionEngine) (policy : PublishedDatagramPolicy) (ordinal stage : Nat)
    (fault : DatagramFaultSpec) : Nat → List Nat → List Nat × Nat
  | nextCopy, [] => ([], nextCopy)
  | nextCopy, copy :: copies =>
    let (out, nextCopy) := e.copiesOf policy ordinal stage fault nextCopy copy
    let (outs, nextCopy) := stageCopies e policy ordinal stage fault nextCopy copies
    (out ++ outs, nextCopy)

def copiesFrom (e : DatagramDirectionEngine) (policy : PublishedDatagramPolicy) (ordinal : Nat) :
    Nat → List DatagramFaultSpec → Nat → List Nat → List Nat
  | _, [], _, copies => copies
  | stage, fault :: faults, nextCopy, copies =>
    let (copies, nextCopy) := e.stageCopies policy ordinal stage fault nextCopy copies
    copiesFrom e policy ordinal (stage + 1) faults nextCopy copies

/-- The indices of the copies of the next datagram that the loss and duplicate
draws of the plan leave, whatever its payload and the time. -/
def survivingCopies (e : DatagramDirectionEngine) (policy : PublishedDatagramPolicy) : List Nat :=
  e.copiesFrom policy e.ordinal 0 policy.plan.faults 1 [0]

/-! ## The replaced path -/

/-- Queue every candidate at its release. -/
def enqueueAll (now ordinal generation : Nat) : DatagramDirectionEngine → List Staged → DatagramDirectionEngine
  | e, [] => e
  | e, c :: cs => enqueueAll now ordinal generation (e.enqueue (now + c.delay) ordinal c.copy c.bytes generation) cs

/-- Admit a datagram, queue all its candidates and drain what is due. -/
def queueThenDrain (e : DatagramDirectionEngine) (now : Nat) (payload : List Byte) (policy : PublishedDatagramPolicy) :
    List DatagramScheduled × DatagramDirectionEngine :=
  let (cs, e') := ((e.count payload).adopt policy).candidates now payload policy e.ordinal
  (enqueueAll now e.ordinal policy.generation e' cs).takeReady now

/-! ## The pipeline makes exactly those copies -/

variable {e e' : DatagramDirectionEngine}

theorem Staging.activates (h : Staging e e') (policy : PublishedDatagramPolicy) (ordinal stage : Nat)
    (fault : DatagramFaultSpec) (copy : Nat) :
    e'.activates policy ordinal stage fault copy = e.activates policy ordinal stage fault copy := by
  simp only [DatagramDirectionEngine.activates, h.proxy, h.association, h.direction]

theorem Staging.copiesOf (h : Staging e e') (policy : PublishedDatagramPolicy) (ordinal stage : Nat)
    (fault : DatagramFaultSpec) (nextCopy copy : Nat) :
    e'.copiesOf policy ordinal stage fault nextCopy copy = e.copiesOf policy ordinal stage fault nextCopy copy := by
  simp only [DatagramDirectionEngine.copiesOf, h.activates]

theorem Staging.stageCopies (h : Staging e e') (policy : PublishedDatagramPolicy) (ordinal stage : Nat)
    (fault : DatagramFaultSpec) (nextCopy : Nat) (copies : List Nat) :
    e'.stageCopies policy ordinal stage fault nextCopy copies =
      e.stageCopies policy ordinal stage fault nextCopy copies := by
  induction copies generalizing nextCopy with
  | nil => rfl
  | cons copy copies ih => simp only [DatagramDirectionEngine.stageCopies, h.copiesOf, ih]

theorem Staging.copiesFrom (h : Staging e e') (policy : PublishedDatagramPolicy) (ordinal : Nat)
    (faults : List DatagramFaultSpec) (stage nextCopy : Nat) (copies : List Nat) :
    e'.copiesFrom policy ordinal stage faults nextCopy copies =
      e.copiesFrom policy ordinal stage faults nextCopy copies := by
  induction faults generalizing stage nextCopy copies with
  | nil => rfl
  | cons fault faults ih => simp only [DatagramDirectionEngine.copiesFrom, h.stageCopies, ih]

theorem corruptAt_length (i : Nat) (v : List Byte) (rng : DeterministicRng) :
    (corruptAt i v rng).1.length = v.length := by
  simp only [corruptAt, List.length_set]

theorem corrupted_length (count : Nat) (bytes : List Byte) (rng : DeterministicRng) :
    (corrupted count bytes rng).length = bytes.length := by
  simp only [corrupted]
  generalize List.range (min count bytes.length) = positions
  induction positions generalizing bytes rng with
  | nil => rfl
  | cons i positions ih =>
    rw [List.foldl_cons]
    exact (ih (corruptAt i bytes rng).1 (corruptAt i bytes rng).2).trans (corruptAt_length i bytes rng)

/-- A stage keeps the payload's length in every output, and its outputs are the
copies that `copiesOf` names. -/
theorem runCandidate_copies (e : DatagramDirectionEngine) (now : Nat) (policy : PublishedDatagramPolicy)
    (ordinal stage : Nat) (fault : DatagramFaultSpec) (nextCopy : Nat) (c : Staged) :
    ((e.runCandidate now policy ordinal stage fault nextCopy c).1.map (·.copy),
        (e.runCandidate now policy ordinal stage fault nextCopy c).2.2) =
        e.copiesOf policy ordinal stage fault nextCopy c.copy ∧
      ∀ o ∈ (e.runCandidate now policy ordinal stage fault nextCopy c).1, o.bytes.length = c.bytes.length := by
  simp only [runCandidate, copiesOf]
  split
  · generalize (e.activates policy ordinal stage fault c.copy).2 = rng
    simp only [apply]
    cases hk : fault.kind with
    | loss => simp
    | duplicate copies => simp [Function.comp_def]
    | payloadCorrupt count =>
      simp only
      split
      · simp
      · simp [corrupted_length]
    | bandwidth rate burst => simp
    | delay delay jitter => simp
    | reorder hold => simp
  · simp

theorem runStage_copies (now : Nat) (policy : PublishedDatagramPolicy) (ordinal stage : Nat)
    (fault : DatagramFaultSpec) (cs : List Staged) (e : DatagramDirectionEngine) (nextCopy size : Nat)
    (hsize : ∀ c ∈ cs, c.bytes.length = size) :
    ((runStage now policy ordinal stage fault e nextCopy cs).1.map (·.copy),
        (runStage now policy ordinal stage fault e nextCopy cs).2.2) =
        e.stageCopies policy ordinal stage fault nextCopy (cs.map (·.copy)) ∧
      ∀ o ∈ (runStage now policy ordinal stage fault e nextCopy cs).1, o.bytes.length = size := by
  induction cs generalizing e nextCopy with
  | nil => simp [runStage, stageCopies]
  | cons c cs ih =>
    obtain ⟨hcopies, hlen⟩ := runCandidate_copies e now policy ordinal stage fault nextCopy c
    have hstaging := (runCandidate_spec e now policy ordinal stage fault nextCopy c).1
    simp only [runStage, List.map_cons, stageCopies, ← hcopies]
    generalize e.runCandidate now policy ordinal stage fault nextCopy c = r at *
    obtain ⟨out, e', nextCopy'⟩ := r
    obtain ⟨hrest, hrestLen⟩ := ih e' nextCopy' fun d hd => hsize d (by simp [hd])
    rw [hstaging.stageCopies] at hrest
    refine ⟨by simp only [← hrest, List.map_append], ?_⟩
    intro o ho
    rcases List.mem_append.1 ho with ho | ho
    · exact (hlen o ho).trans (hsize c (by simp))
    · exact hrestLen o ho

theorem runStages_copies (now : Nat) (policy : PublishedDatagramPolicy) (ordinal : Nat)
    (faults : List DatagramFaultSpec) (stage : Nat) (e : DatagramDirectionEngine) (nextCopy size : Nat)
    (cs : List Staged) (hsize : ∀ c ∈ cs, c.bytes.length = size) :
    (runStages now policy ordinal stage faults e nextCopy cs).1.map (·.copy) =
        e.copiesFrom policy ordinal stage faults nextCopy (cs.map (·.copy)) ∧
      ∀ o ∈ (runStages now policy ordinal stage faults e nextCopy cs).1, o.bytes.length = size := by
  induction faults generalizing stage e nextCopy cs with
  | nil => exact ⟨rfl, hsize⟩
  | cons fault faults ih =>
    obtain ⟨hcopies, hlen⟩ := runStage_copies now policy ordinal stage fault cs e nextCopy size hsize
    have hstaging := (runStage_spec now policy ordinal stage fault cs e nextCopy).1
    simp only [runStages, copiesFrom, ← hcopies]
    generalize runStage now policy ordinal stage fault e nextCopy cs = r at *
    obtain ⟨cs', e', nextCopy'⟩ := r
    obtain ⟨hrest, hrestLen⟩ := ih (stage + 1) e' nextCopy' cs' hlen
    rw [hstaging.copiesFrom] at hrest
    exact ⟨hrest, hrestLen⟩

/-! ## The copies are distinct -/

theorem duplicates_eq {copy n : Nat} (h : copy + n ≤ 65535) :
    duplicates copy n = List.range' copy n ∧ indexAfter copy n = copy + n := by
  induction n generalizing copy with
  | zero => exact ⟨rfl, rfl⟩
  | succ n ih =>
    have hnext : min (copy + 1) 65535 = copy + 1 := by omega
    have hle : copy + 1 + n ≤ 65535 := by omega
    obtain ⟨hl, hi⟩ := ih hle
    refine ⟨?_, ?_⟩
    · rw [duplicates, hnext, hl, List.range'_succ]
    · rw [indexAfter, hnext, hi]
      omega

/-- `outs` and the next index `m'` come from distinct copies `l` below `m`, each
of which makes at most `k` of itself. -/
structure Distinct (k m : Nat) (l : List Nat) (m' : Nat) (outs : List Nat) : Prop where
  next_ge : m ≤ m'
  next_le : m' ≤ m + l.length * (k - 1)
  count : outs.length ≤ l.length * k
  nodup : outs.Nodup
  from_ : ∀ x ∈ outs, x ∈ l ∨ (m ≤ x ∧ x < m')

theorem copiesOf_distinct (e : DatagramDirectionEngine) (policy : PublishedDatagramPolicy) (ordinal stage : Nat)
    (fault : DatagramFaultSpec) {m copy : Nat} (hcopy : copy < m)
    (hm : m + (DatagramPlan.fanOut fault.kind - 1) ≤ 65535) :
    Distinct (DatagramPlan.fanOut fault.kind) m [copy] (e.copiesOf policy ordinal stage fault m copy).2
      (e.copiesOf policy ordinal stage fault m copy).1 := by
  have hone : Distinct (DatagramPlan.fanOut fault.kind) m [copy] m [copy] := by
    have := DatagramPlan.fanOut_pos fault.kind
    exact ⟨le_refl m, Nat.le_add_right _ _, by simpa using Nat.succ_le_of_lt this, List.nodup_singleton _, fun x hx => .inl hx⟩
  simp only [copiesOf]
  split
  · cases hk : fault.kind with
    | loss => exact ⟨le_refl m, Nat.le_add_right _ _, Nat.zero_le _, List.nodup_nil, by simp⟩
    | duplicate copies =>
      simp only [hk, DatagramPlan.fanOut, Nat.add_sub_cancel] at hm ⊢
      obtain ⟨hl, hi⟩ := duplicates_eq hm
      rw [hl, hi]
      refine ⟨by omega, by simp, by simp, ?_, ?_⟩
      · refine List.nodup_cons.2 ⟨?_, List.nodup_range'⟩
        intro hmem
        have := List.mem_range'_1.1 hmem
        omega
      · intro x hx
        rcases List.mem_cons.1 hx with rfl | hx
        · exact .inl (by simp)
        · have := List.mem_range'_1.1 hx
          exact .inr ⟨this.1, by omega⟩
    | payloadCorrupt count => simpa only [hk] using hone
    | bandwidth rate burst => simpa only [hk] using hone
    | delay delay jitter => simpa only [hk] using hone
    | reorder hold => simpa only [hk] using hone
  · exact hone

/-- The outputs of one candidate and of the rest of a stage stay apart: the new
indices of both lie above all old ones, one range after the other. -/
theorem Distinct.append {k m copy m₁ m' : Nat} {l out outs : List Nat} (hnodup : (copy :: l).Nodup)
    (hlt : ∀ x ∈ copy :: l, x < m) (h : Distinct k m [copy] m₁ out) (h' : Distinct k m₁ l m' outs) :
    Distinct k m (copy :: l) m' (out ++ outs) := by
  obtain ⟨hge, hle, hcount, hn, hfrom⟩ := h
  obtain ⟨hge', hle', hcount', hn', hfrom'⟩ := h'
  have hcons : (copy :: l).length * (k - 1) = l.length * (k - 1) + (k - 1) := by
    rw [List.length_cons, Nat.succ_mul]
  have hcons' : (copy :: l).length * k = l.length * k + k := by
    rw [List.length_cons, Nat.succ_mul]
  simp only [List.length_singleton, Nat.one_mul] at hle hcount
  refine ⟨by omega, by omega, by rw [List.length_append]; omega, ?_, ?_⟩
  · refine List.nodup_append.2 ⟨hn, hn', ?_⟩
    rintro x hx _ hy rfl
    have hcopy := (List.nodup_cons.1 hnodup).1
    rcases hfrom x hx with hx | hx
    · rw [List.mem_singleton] at hx
      subst hx
      rcases hfrom' x hy with hy | hy
      · exact hcopy hy
      · have := hlt x (by simp)
        omega
    · rcases hfrom' x hy with hy | hy
      · have := hlt x (by simp [hy])
        omega
      · omega
  · intro x hx
    rcases List.mem_append.1 hx with hx | hx
    · rcases hfrom x hx with hx | hx
      · rw [List.mem_singleton] at hx
        exact .inl (by simp [hx])
      · exact .inr ⟨hx.1, by omega⟩
    · rcases hfrom' x hx with hx | hx
      · exact .inl (by simp [hx])
      · exact .inr ⟨by omega, hx.2⟩

theorem stageCopies_distinct (e : DatagramDirectionEngine) (policy : PublishedDatagramPolicy) (ordinal stage : Nat)
    (fault : DatagramFaultSpec) (copies : List Nat) {m : Nat} (hnodup : copies.Nodup) (hlt : ∀ x ∈ copies, x < m)
    (hm : m + copies.length * (DatagramPlan.fanOut fault.kind - 1) ≤ 65535) :
    Distinct (DatagramPlan.fanOut fault.kind) m copies (e.stageCopies policy ordinal stage fault m copies).2
      (e.stageCopies policy ordinal stage fault m copies).1 := by
  induction copies generalizing m with
  | nil => exact ⟨le_refl m, by simp [stageCopies], by simp [stageCopies], List.nodup_nil, by simp [stageCopies]⟩
  | cons copy copies ih =>
    rw [List.length_cons, Nat.succ_mul] at hm
    have h := e.copiesOf_distinct policy ordinal stage fault (hlt copy (by simp)) (m := m) (by omega)
    simp only [stageCopies]
    generalize e.copiesOf policy ordinal stage fault m copy = r at *
    obtain ⟨out, m₁⟩ := r
    have hge := h.next_ge
    have hle := h.next_le
    simp only [List.length_singleton, Nat.one_mul] at hge hle
    have h' := ih (m := m₁) (List.nodup_cons.1 hnodup).2
      (fun x hx => (hlt x (by simp [hx])).trans_le hge) (by omega)
    exact h.append hnodup hlt h'

theorem copiesFrom_nodup (e : DatagramDirectionEngine) (policy : PublishedDatagramPolicy) (ordinal : Nat)
    (faults : List DatagramFaultSpec) (stage : Nat) {m b : Nat} {copies : List Nat} (hnodup : copies.Nodup)
    (hlt : ∀ x ∈ copies, x < m) (hm : m ≤ b) (hlen : copies.length ≤ b)
    (hbound : b * DatagramPlan.amplification faults ≤ 4096) :
    (e.copiesFrom policy ordinal stage faults m copies).Nodup := by
  induction faults generalizing stage m b copies with
  | nil => exact hnodup
  | cons fault faults ih =>
    -- The bound on copies and indices grows by the stage's factor.
    have hk := DatagramPlan.fanOut_pos fault.kind
    have hrest : b * DatagramPlan.fanOut fault.kind * DatagramPlan.amplification faults ≤ 4096 := by
      rw [Nat.mul_assoc]
      simpa [DatagramPlan.amplification] using hbound
    have hstage : b * DatagramPlan.fanOut fault.kind ≤ 4096 :=
      (Nat.le_mul_of_pos_right _ (DatagramPlan.amplification_pos faults)).trans hrest
    have hgrow : m + copies.length * (DatagramPlan.fanOut fault.kind - 1) ≤ b * DatagramPlan.fanOut fault.kind := by
      obtain ⟨k, hk'⟩ : ∃ k, DatagramPlan.fanOut fault.kind = k + 1 := ⟨_, (Nat.succ_pred_eq_of_pos hk).symm⟩
      rw [hk', Nat.add_sub_cancel, Nat.mul_succ, Nat.add_comm]
      exact Nat.add_le_add (Nat.mul_le_mul_right k hlen) hm
    obtain ⟨hge, hle, hcount, hn, hfrom⟩ :=
      e.stageCopies_distinct policy ordinal stage fault copies hnodup hlt (by omega)
    simp only [copiesFrom]
    generalize e.stageCopies policy ordinal stage fault m copies = r at *
    obtain ⟨outs, m'⟩ := r
    refine ih (stage + 1) hn ?_ (hle.trans hgrow) (hcount.trans (Nat.mul_le_mul_right _ hlen)) hrest
    intro x hx
    rcases hfrom x hx with hx | hx
    · exact (hlt x hx).trans_le hge
    · exact hx.2

/-- Under a validated policy the surviving copies of a datagram are distinct. -/
theorem survivingCopies_nodup (e : DatagramDirectionEngine) (policy : PublishedDatagramPolicy) :
    (e.survivingCopies policy).Nodup := by
  have hbound := DatagramPlan.amplification_le policy.valid
  exact e.copiesFrom_nodup policy e.ordinal policy.plan.faults 0 (m := 1) (b := 1) (List.nodup_singleton 0) (by simp)
    (le_refl 1) (by simp) (by omega)

end DatagramDirectionEngine

/-! ## What both paths leave in the evidence -/

namespace DatagramEvidence

/-- One more emission of `size` bytes in the totals. -/
def emittedOnce (size : Nat) (ev : DatagramEvidence) : DatagramEvidence :=
  { ev with
    emittedDatagrams := satAdd ev.emittedDatagrams 1
    emittedBytes := satAdd ev.emittedBytes size }

/-- Peaks of at least `n` datagrams and `bytes` bytes. -/
def peaked (ev : DatagramEvidence) (n bytes : Nat) : DatagramEvidence :=
  { ev with
    highWaterDatagrams := max ev.highWaterDatagrams n
    highWaterBytes := max ev.highWaterBytes bytes }

/-- The gauges as `n` datagrams of `bytes` bytes inside. -/
def holding (ev : DatagramEvidence) (n bytes : Nat) : DatagramEvidence :=
  { ev with queuedDatagrams := n, queuedBytes := bytes }

theorem emittedOnce_peaked (size n bytes : Nat) (ev : DatagramEvidence) :
    (ev.peaked n bytes).emittedOnce size = (ev.emittedOnce size).peaked n bytes := rfl

theorem peaked_peaked (ev : DatagramEvidence) (n bytes : Nat) : (ev.peaked n bytes).peaked n bytes = ev.peaked n bytes := by
  simp [peaked]

theorem holding_self {ev : DatagramEvidence} {n bytes : Nat} (hn : ev.queuedDatagrams = n) (hb : ev.queuedBytes = bytes) :
    ev.holding n bytes = ev := by
  subst hn hb
  rfl

/-- In and out of an idle scheduler. -/
theorem noteEmitted_noteQueued {ev : DatagramEvidence} {size : Nat} (hn : ev.queuedDatagrams = 0)
    (hb : ev.queuedBytes = 0) (hsize : size ≤ u64Max) :
    (ev.noteQueued size).noteEmitted size = (ev.peaked 1 size).emittedOnce size := by
  have h1 : satAdd 0 1 = 1 := rfl
  have hs : satAdd 0 size = size := by rw [satAdd, Nat.zero_add, clampU64_of_le hsize]
  simp only [noteEmitted, noteQueued, peaked, emittedOnce, hn, hb, h1, hs, Nat.sub_self]

theorem noteQueued_holding {ev : DatagramEvidence} {n bytes size : Nat} (hn : n + 1 ≤ u64Max)
    (hb : bytes + size ≤ u64Max) :
    (ev.holding n bytes).noteQueued size = (ev.peaked (n + 1) (bytes + size)).holding (n + 1) (bytes + size) := by
  simp only [noteQueued, holding, peaked, satAdd, clampU64_of_le hn, clampU64_of_le hb]

theorem noteEmitted_holding (ev : DatagramEvidence) (n bytes size : Nat) :
    (ev.holding (n + 1) (bytes + size)).noteEmitted size = (ev.emittedOnce size).holding n bytes := by
  simp only [noteEmitted, holding, emittedOnce, Nat.add_sub_cancel]

theorem iterate_gauges (size n : Nat) (ev : DatagramEvidence) :
    ((emittedOnce size)^[n] ev).queuedDatagrams = ev.queuedDatagrams ∧
      ((emittedOnce size)^[n] ev).queuedBytes = ev.queuedBytes := by
  induction n generalizing ev with
  | zero => exact ⟨rfl, rfl⟩
  | succ n ih => exact ih (ev.emittedOnce size)

theorem iterate_peaks (size n : Nat) (ev : DatagramEvidence) :
    ((emittedOnce size)^[n] ev).highWaterDatagrams = ev.highWaterDatagrams ∧
      ((emittedOnce size)^[n] ev).highWaterBytes = ev.highWaterBytes := by
  induction n generalizing ev with
  | zero => exact ⟨rfl, rfl⟩
  | succ n ih => exact ih (ev.emittedOnce size)

/-- The peaks of `n ≥ 1` datagrams of `size` bytes counted one at a time and
counted together agree when there is one, or when they were reached before. -/
theorem peaks_agree_iff (ev : DatagramEvidence) {n : Nat} (size : Nat) (hn : 0 < n) :
    (emittedOnce size)^[n] (ev.peaked n (n * size)) = (emittedOnce size)^[n] (ev.peaked 1 size) ↔
      n = 1 ∨ (n ≤ ev.highWaterDatagrams ∧ (size = 0 ∨ n * size ≤ ev.highWaterBytes)) := by
  constructor
  · intro h
    have hd := congrArg highWaterDatagrams h
    have hb := congrArg highWaterBytes h
    rw [(iterate_peaks _ _ _).1, (iterate_peaks _ _ _).1] at hd
    rw [(iterate_peaks _ _ _).2, (iterate_peaks _ _ _).2] at hb
    simp only [peaked] at hd hb
    by_cases h1 : n = 1
    · exact .inl h1
    · refine .inr ⟨by omega, ?_⟩
      by_cases hs : size = 0
      · exact .inl hs
      · -- Two or more of a positive size exceed one, so the old peak covers them.
        have : size < n * size := by
          have := Nat.mul_le_mul_right size (show 2 ≤ n by omega)
          omega
        exact .inr (by omega)
  · rintro (rfl | ⟨hd, hb⟩)
    · rw [Nat.one_mul]
    · have hpeaks : ev.peaked n (n * size) = ev.peaked 1 size := by
        have h1 : max ev.highWaterDatagrams n = max ev.highWaterDatagrams 1 := by omega
        have h2 : max ev.highWaterBytes (n * size) = max ev.highWaterBytes size := by
          rcases hb with rfl | hb
          · rw [Nat.mul_zero]
          · have := Nat.le_mul_of_pos_left size hn
            omega
        simp only [peaked, h1, h2]
      rw [hpeaks]

end DatagramEvidence

namespace DatagramDirectionEngine

variable {e e' : DatagramDirectionEngine}

theorem emitAll_evidence (ordinal generation : Nat) {size : Nat} (hsize : size ≤ u64Max) (cs : List Staged)
    (hlen : ∀ c ∈ cs, c.bytes.length = size) (hne : cs ≠ []) (hn : e.evidence.queuedDatagrams = 0)
    (hb : e.evidence.queuedBytes = 0) :
    (emitAll ordinal generation e cs).2.evidence =
      (DatagramEvidence.emittedOnce size)^[cs.length] (e.evidence.peaked 1 size) := by
  induction cs generalizing e with
  | nil => exact absurd rfl hne
  | cons c cs ih =>
    have hc : (e.emitImmediate ordinal c.bytes generation c.copy).2.evidence =
        (e.evidence.peaked 1 size).emittedOnce size := by
      simp only [emitImmediate, hlen c (by simp)]
      exact DatagramEvidence.noteEmitted_noteQueued hn hb hsize
    rw [List.length_cons, Function.iterate_succ_apply, ← hc]
    cases cs with
    | nil => rfl
    | cons d ds =>
      have hrest := ih (e := (e.emitImmediate ordinal c.bytes generation c.copy).2)
        (fun x hx => hlen x (by simp [hx])) (by simp) (by rw [hc]; exact hn) (by rw [hc]; exact hb)
      -- The peaks of the first candidate are those of all.
      rw [hc, ← DatagramEvidence.emittedOnce_peaked, DatagramEvidence.peaked_peaked, ← hc] at hrest
      exact hrest

theorem emitAll_items (ordinal generation : Nat) (cs : List Staged) :
    (emitAll ordinal generation e cs).1 =
      cs.map fun c => (⟨c.bytes, ordinal, c.copy, generation⟩ : DatagramScheduled) := by
  induction cs generalizing e with
  | nil => rfl
  | cons c cs ih => simp only [emitAll, ih, List.map_cons]; rfl

theorem enqueueAll_evidence (now ordinal generation : Nat) {size : Nat} (cs : List Staged) {ev : DatagramEvidence}
    {n b : Nat} (hlen : ∀ c ∈ cs, c.bytes.length = size) (he : e.evidence = (ev.peaked n b).holding n b)
    (hn : n + cs.length ≤ u64Max) (hb : b + cs.length * size ≤ u64Max) :
    (enqueueAll now ordinal generation e cs).evidence =
      (ev.peaked (n + cs.length) (b + cs.length * size)).holding (n + cs.length) (b + cs.length * size) := by
  induction cs generalizing e n b with
  | nil => simpa [enqueueAll] using he
  | cons c cs ih =>
    rw [List.length_cons] at hn hb ⊢
    rw [Nat.succ_mul] at hb
    have hc : (e.enqueue (now + c.delay) ordinal c.copy c.bytes generation).evidence =
        (ev.peaked (n + 1) (b + size)).holding (n + 1) (b + size) := by
      simp only [enqueue, hlen c (by simp), he]
      rw [DatagramEvidence.noteQueued_holding (by omega) (by omega)]
      simp only [DatagramEvidence.peaked, DatagramEvidence.holding, Nat.max_assoc]
      rw [Nat.max_eq_right (Nat.le_succ n), Nat.max_eq_right (Nat.le_add_right b size)]
    have := ih (fun x hx => hlen x (by simp [hx])) hc (by omega) (by omega)
    rw [enqueueAll, this, Nat.succ_mul, Nat.add_assoc n, Nat.add_comm 1, Nat.add_assoc b, Nat.add_comm size]

theorem drain_all (now : Nat) {size : Nat} (queue : List Candidate) (hdue : ∀ c ∈ queue, c.at_ ≤ now)
    (hlen : ∀ c ∈ queue, c.payload.length = size) (ev : DatagramEvidence) :
    drain now queue (ev.holding queue.length (queue.length * size)) =
      (queue.map Candidate.scheduled, [], ((DatagramEvidence.emittedOnce size)^[queue.length] ev).holding 0 0) := by
  induction queue generalizing ev with
  | nil => simp [drain]
  | cons c cs ih =>
    have hc := hlen c (by simp)
    rw [List.length_cons, Nat.succ_mul]
    simp only [drain, hdue c (by simp), if_true, hc]
    rw [DatagramEvidence.noteEmitted_holding, ih (fun x hx => hdue x (by simp [hx])) (fun x hx => hlen x (by simp [hx]))]
    rfl

/-! ## The items and their order -/

theorem le_total {a b : Candidate} (h : ¬ a.le b) : b.le a := by
  simp only [Candidate.le] at h ⊢
  omega

theorem le_trans {a b c : Candidate} (h : a.le b) (h' : b.le c) : a.le c := by
  simp only [Candidate.le] at h h' ⊢
  omega

theorem push_sorted (c : Candidate) {queue : List Candidate} (h : queue.Pairwise Candidate.le) :
    (push c queue).Pairwise Candidate.le := by
  induction queue with
  | nil => exact List.pairwise_singleton _ c
  | cons d ds ih =>
    obtain ⟨hd, hds⟩ := List.pairwise_cons.1 h
    simp only [push]
    split
    · next hle =>
      refine List.pairwise_cons.2 ⟨?_, ih hds⟩
      intro x hx
      rcases List.mem_cons.1 ((push_perm c ds).subset hx) with rfl | hx
      · exact hle
      · exact hd x hx
    · next hle =>
      refine List.pairwise_cons.2 ⟨?_, h⟩
      intro x hx
      rcases List.mem_cons.1 hx with rfl | hx
      · exact le_total hle
      · exact le_trans (le_total hle) (hd x hx)

/-- The candidate a staged one is queued as. -/
def Staged.queuedAt (now ordinal generation : Nat) (c : Staged) : Candidate :=
  ⟨now + c.delay, ordinal, c.copy, c.bytes, generation⟩

theorem enqueueAll_queue (now ordinal generation : Nat) (cs : List Staged) (h : e.queue.Pairwise Candidate.le) :
    (enqueueAll now ordinal generation e cs).queue.Perm (cs.map (Staged.queuedAt now ordinal generation) ++ e.queue) ∧
      (enqueueAll now ordinal generation e cs).queue.Pairwise Candidate.le := by
  induction cs generalizing e with
  | nil => exact ⟨.refl _, h⟩
  | cons c cs ih =>
    obtain ⟨hp, hs⟩ := ih (e := e.enqueue (now + c.delay) ordinal c.copy c.bytes generation) (push_sorted _ h)
    refine ⟨?_, hs⟩
    refine hp.trans (((push_perm _ _).append_left _).trans ?_)
    exact List.perm_middle

instance : IsTrans DatagramScheduled DatagramScheduled.le where
  trans a b c h h' := by
    simp only [DatagramScheduled.le] at h h' ⊢
    omega

instance : Std.Total DatagramScheduled.le where
  total a b := by
    simp only [DatagramScheduled.le]
    omega

/-- Candidates of distinct copies that leave at one instant are drained in the
order the immediate items are sorted in. -/
theorem drained_eq_sorted (now ordinal generation : Nat) {cs : List Staged} (hzero : ∀ c ∈ cs, c.delay = 0)
    (hnodup : (cs.map (·.copy)).Nodup) {queue : List Candidate}
    (hperm : queue.Perm (cs.map (Staged.queuedAt now ordinal generation))) (hsorted : queue.Pairwise Candidate.le) :
    queue.map Candidate.scheduled =
      sortItems (cs.map fun c => (⟨c.bytes, ordinal, c.copy, generation⟩ : DatagramScheduled)) := by
  have hitems : cs.map (fun c => (⟨c.bytes, ordinal, c.copy, generation⟩ : DatagramScheduled)) =
      (cs.map (Staged.queuedAt now ordinal generation)).map Candidate.scheduled := by
    rw [List.map_map]
    rfl
  have hat : ∀ c ∈ queue, c.at_ = now ∧ c.ordinal = ordinal := by
    intro c hc
    obtain ⟨d, hd, rfl⟩ := List.mem_map.1 (hperm.subset hc)
    exact ⟨by simp [Staged.queuedAt, hzero d hd], rfl⟩
  have hperm' : (queue.map Candidate.scheduled).Perm
      (cs.map fun c => (⟨c.bytes, ordinal, c.copy, generation⟩ : DatagramScheduled)) := by
    rw [hitems]
    exact hperm.map _
  refine @List.Perm.eq_of_pairwise _ DatagramScheduled.le _ _ ?_ ?_ (List.pairwise_insertionSort _ _)
    (hperm'.trans (List.perm_insertionSort _ _).symm)
  · -- Two items that sort alike are the same copy.
    intro a b ha hb hab hba
    have hmem : ∀ x ∈ cs.map (fun c => (⟨c.bytes, ordinal, c.copy, generation⟩ : DatagramScheduled)),
        ∃ c ∈ cs, x = ⟨c.bytes, ordinal, c.copy, generation⟩ := by
      intro x hx
      obtain ⟨c, hc, rfl⟩ := List.mem_map.1 hx
      exact ⟨c, hc, rfl⟩
    obtain ⟨c, hc, rfl⟩ := hmem a (hperm'.subset ha)
    obtain ⟨d, hd, rfl⟩ := hmem b ((List.perm_insertionSort _ _).subset hb)
    have hcopy : c.copy = d.copy := by
      simp only [DatagramScheduled.le] at hab hba
      omega
    rw [List.inj_on_of_nodup_map hnodup hc hd hcopy]
  · rw [List.pairwise_map]
    refine hsorted.imp_of_mem ?_
    intro a b ha hb hab
    obtain ⟨hat₁, hord₁⟩ := hat a ha
    obtain ⟨hat₂, hord₂⟩ := hat b hb
    simp only [Candidate.le, DatagramScheduled.le, Candidate.scheduled] at hab ⊢
    omega

/-! ## The two paths -/

/-- What an immediate admission has found: candidates without delay, an empty
scheduler, and room for all of them. -/
theorem immediate_spec {limits : DatagramQueueLimits} {held now : Nat} {payload : List Byte}
    {policy : PublishedDatagramPolicy} {items : List DatagramScheduled} (hs : e.Sound limits held)
    (h : e.admitDatagram now payload policy = (.immediate items, e')) :
    ∃ cs e₁, ((e.count payload).adopt policy).candidates now payload policy e.ordinal = (cs, e₁) ∧
      payload.length ≤ u64Max ∧ cs ≠ [] ∧ (∀ c ∈ cs, c.delay = 0) ∧ e.queue = [] ∧ cs.length ≤ u64Max ∧
      (cs.map (·.bytes.length)).sum ≤ u64Max ∧ items = sortItems (emitAll e.ordinal policy.generation e₁ cs).1 ∧
      e' = (emitAll e.ordinal policy.generation e₁ cs).2 := by
  have hcount := count_sound hs payload
  obtain ⟨hst, hb⟩ := adopt_staging (e.count payload) policy
  have hadopt := hcount.staged hst (hcount.books.same hb)
  have hqueue : ((e.count payload).adopt policy).queue = e.queue := hst.queue
  simp only [admitDatagram] at h
  generalize (e.count payload).adopt policy = adopted at *
  split at h
  · cases h
  · next hsize =>
    have hpayload : payload.length ≤ u64Max := by
      have := (e.count payload).limits.maxDatagramBytes.le_max
      omega
    split at h
    · next hempty =>
      -- An empty plan has the payload itself as its one candidate.
      rw [List.isEmpty_iff] at hempty
      refine ⟨[⟨0, payload, 0⟩], adopted, by simp [candidates, runStages, hempty], hpayload, by simp, by simp, ?_⟩
      split at h
      · next hfit =>
        obtain ⟨hq, hfit⟩ := Bool.and_eq_true_iff.1 hfit
        rw [List.isEmpty_iff] at hq
        cases h
        exact ⟨hqueue ▸ hq, (show 1 ≤ u64Max by decide), by simpa using hpayload, rfl, rfl⟩
      · split at h
        · cases h
        · cases h
    · obtain ⟨hs', -⟩ := runStages_spec now policy e.ordinal policy.plan.faults 0 adopted 1 [⟨0, payload, 0⟩]
      simp only [candidates] at h ⊢
      generalize runStages now policy e.ordinal 0 policy.plan.faults adopted 1 [⟨0, payload, 0⟩] = r at *
      obtain ⟨cs, e₁⟩ := r
      simp only [settle] at h
      split at h
      · next himm =>
        simp only [isImmediate, totalBytes, Bool.and_eq_true, List.isEmpty_iff, Bool.not_eq_true',
          List.all_eq_true, decide_eq_true_eq] at himm
        obtain ⟨⟨⟨hne, hzero⟩, hq⟩, hfits⟩ := himm
        cases h
        refine ⟨cs, e₁, rfl, hpayload, by rintro rfl; simp at hne, hzero, ?_, ?_, ?_, rfl, rfl⟩
        · rw [← hqueue, ← hs'.queue, hq]
        · split at hfits
          · simp only [fitsAll, Bool.and_eq_true, decide_eq_true_eq] at hfits
            have hroom := hfits.1
            rw [hs'.limits] at hroom
            have := (hadopt.exact (a := e₁.queue.length) (b := cs.length)).2 hroom
            have := adopted.limits.maxQueuedDatagrams.le_max
            omega
          · cases hfits
        · by_contra hbig
          rw [if_neg hbig] at hfits
          cases hfits
      · split at h <;> cases h

/-- What queue-then-drain leaves of the candidates of an immediate admission. -/
theorem takeReady_enqueueAll {cs : List Staged} {size : Nat} (now ordinal generation : Nat) (hq : e.queue = [])
    (hn : e.evidence.queuedDatagrams = 0) (hb : e.evidence.queuedBytes = 0)
    (hlen : ∀ c ∈ cs, c.bytes.length = size) (hzero : ∀ c ∈ cs, c.delay = 0) (hnodup : (cs.map (·.copy)).Nodup)
    (hcount : cs.length ≤ u64Max) (hsum : cs.length * size ≤ u64Max) :
    ((enqueueAll now ordinal generation e cs).takeReady now).1 = sortItems (emitAll ordinal generation e cs).1 ∧
      ((enqueueAll now ordinal generation e cs).takeReady now).2.evidence =
        (DatagramEvidence.emittedOnce size)^[cs.length] (e.evidence.peaked cs.length (cs.length * size)) := by
  have hidle : e.evidence = (e.evidence.peaked 0 0).holding 0 0 := by
    rw [DatagramEvidence.holding_self (by exact hn) (by exact hb)]
    simp only [DatagramEvidence.peaked, Nat.max_zero]
  have hev := enqueueAll_evidence now ordinal generation (n := 0) (b := 0) cs hlen hidle (by omega) (by omega)
  obtain ⟨hperm, hsorted⟩ := enqueueAll_queue (e := e) now ordinal generation cs (by simp [hq])
  rw [hq, List.append_nil] at hperm
  simp only [takeReady, Nat.zero_add] at hev ⊢
  rw [hev]
  generalize (enqueueAll now ordinal generation e cs).queue = queue at *
  have hlength : queue.length = cs.length := by rw [hperm.length_eq, List.length_map]
  have hdrain := @drain_all now size queue ?_ ?_ (e.evidence.peaked cs.length (cs.length * size))
  · rw [hlength] at hdrain
    rw [hdrain, emitAll_items]
    refine ⟨drained_eq_sorted now ordinal generation hzero hnodup hperm hsorted, ?_⟩
    obtain ⟨hn', hb'⟩ :=
      DatagramEvidence.iterate_gauges size cs.length (e.evidence.peaked cs.length (cs.length * size))
    exact DatagramEvidence.holding_self (hn'.trans hn) (hb'.trans hb)
  · intro c hc
    obtain ⟨d, hd, rfl⟩ := List.mem_map.1 (hperm.subset hc)
    simp [Staged.queuedAt, hzero d hd]
  · intro c hc
    obtain ⟨d, hd, rfl⟩ := List.mem_map.1 (hperm.subset hc)
    exact hlen d hd

/-- The immediate path and queue-then-drain emit the same items in the same
order; they leave the same evidence exactly when one copy of the datagram
survives, or when the surviving copies together pass no peak. -/
theorem immediate_eq_queued_iff {limits : DatagramQueueLimits} {held now : Nat} {payload : List Byte}
    {policy : PublishedDatagramPolicy} {items : List DatagramScheduled} (hs : e.Sound limits held)
    (h : e.admitDatagram now payload policy = (.immediate items, e')) :
    (e.queueThenDrain now payload policy).1 = items ∧
      ((e.queueThenDrain now payload policy).2.evidence = e'.evidence ↔
        (e.survivingCopies policy).length = 1 ∨
          ((e.survivingCopies policy).length ≤ e.evidence.highWaterDatagrams ∧
            (payload.length = 0 ∨
              (e.survivingCopies policy).length * payload.length ≤ e.evidence.highWaterBytes))) := by
  obtain ⟨cs, e₁, hcs, hpayload, hne, hzero, hq, hcount, hsum, rfl, rfl⟩ := immediate_spec hs h
  obtain ⟨hcopies, hlen⟩ := runStages_copies now policy e.ordinal policy.plan.faults 0 ((e.count payload).adopt policy) 1
    payload.length [⟨0, payload, 0⟩] (by simp)
  have hstaged := (runStages_spec now policy e.ordinal policy.plan.faults 0 ((e.count payload).adopt policy) 1
    [⟨0, payload, 0⟩]).1
  have hadmitted := (count_staging e payload).trans (adopt_staging (e.count payload) policy).1
  simp only [candidates] at hcs
  rw [hcs] at hcopies hlen hstaged
  -- The candidates are the surviving copies, all of the payload's length.
  have hfrom : cs.map (·.copy) = e.survivingCopies policy := by
    rw [hcopies, hadmitted.copiesFrom]
    rfl
  have hlength : cs.length = (e.survivingCopies policy).length := by rw [← hfrom, List.length_map]
  have hnodup : (cs.map (·.copy)).Nodup := hfrom ▸ e.survivingCopies_nodup policy
  have hgauges : e.evidence.SameGauges e₁.evidence := (hadmitted.trans hstaged).gauges
  have hn : e₁.evidence.queuedDatagrams = 0 := by rw [hgauges.datagrams, hs.room.datagrams, hq]; rfl
  have hb : e₁.evidence.queuedBytes = 0 := by rw [hgauges.bytes, hs.room.bytes, hq]; rfl
  have hq₁ : e₁.queue = [] := by rw [(hadmitted.trans hstaged).queue, hq]
  have htotal : cs.length * payload.length ≤ u64Max := by
    have : cs.map (·.bytes.length) = List.replicate cs.length payload.length := by
      rw [← List.map_const']
      exact List.map_congr_left hlen
    rw [this, List.sum_replicate_nat] at hsum
    exact hsum
  obtain ⟨hitems, hev⟩ :=
    takeReady_enqueueAll now e.ordinal policy.generation hq₁ hn hb hlen hzero hnodup hcount htotal
  have himm := emitAll_evidence e.ordinal policy.generation hpayload cs hlen hne hn hb
  have hdrained : e.queueThenDrain now payload policy =
      (enqueueAll now e.ordinal policy.generation e₁ cs).takeReady now := by
    simp only [queueThenDrain, candidates, hcs]
  rw [hdrained, hev, himm, DatagramEvidence.peaks_agree_iff _ _ (List.length_pos_iff.2 hne), hgauges.peak,
    hgauges.peakBytes, hlength]
  exact ⟨hitems, Iff.rfl⟩

end DatagramDirectionEngine

/-- In every reachable state, for every payload, validated policy and time whose
admission is immediate, queue-then-drain yields the same items and the same
evidence exactly when one copy of the datagram survives the plan's draws, or
the surviving copies together pass neither peak. -/
theorem immediate_matches_queue_iff (limits : DatagramQueueLimits) (proxy : String) (association : UInt64)
    (direction : Direction) (e₀ : DatagramDirectionEngine)
    (hnew : DatagramDirectionEngine.new limits proxy association direction = .ok e₀) (ops : List DatagramOp)
    (now : Nat) (payload : List Byte) (policy : PublishedDatagramPolicy) (items : List DatagramScheduled)
    (e' : DatagramDirectionEngine)
    (h : (run DatagramSession.step (.start e₀) ops).engine.admitDatagram now payload policy = (.immediate items, e')) :
    let e := (run DatagramSession.step (.start e₀) ops).engine
    ((e.queueThenDrain now payload policy).1 = items ∧
        (e.queueThenDrain now payload policy).2.evidence = e'.evidence) ↔
      ((e.survivingCopies policy).length = 1 ∨
        ((e.survivingCopies policy).length ≤ e.evidence.highWaterDatagrams ∧
          (payload.length = 0 ∨
            (e.survivingCopies policy).length * payload.length ≤ e.evidence.highWaterBytes))) := by
  intro e
  have hs := DatagramSession.run_sound (DatagramDirectionEngine.new_sound hnew) ops
  obtain ⟨hitems, hev⟩ := DatagramDirectionEngine.immediate_eq_queued_iff hs h
  rw [← hev]
  exact and_iff_right hitems

/-- One extra copy of every datagram, without delay. -/
def promptCopy : PublishedDatagramPolicy where
  generation := 1
  plan := ⟨[⟨copiesId, .one, .duplicate 1⟩]⟩
  seedNamespace := 7
  fits := one_le_u64Max
  valid := by decide

/-- Once two datagrams of three bytes were queued together, two copies of three
bytes leave the same evidence on both paths. -/
theorem immediate_matches_queue_peaked :
    let e := (run DatagramSession.step (.start pairEngine)
      [.admission 0 [1, 2, 3] delayedCopies, .takeReady 1000000000]).engine
    (e.admitDatagram 1000000000 [4, 5, 6] promptCopy).1 =
        .immediate [⟨[4, 5, 6], 1, 0, 1⟩, ⟨[4, 5, 6], 1, 1, 1⟩] ∧
      (e.queueThenDrain 1000000000 [4, 5, 6] promptCopy).2.evidence =
        (e.admitDatagram 1000000000 [4, 5, 6] promptCopy).2.evidence := by
  have himm : ((run DatagramSession.step (.start pairEngine)
      [.admission 0 [1, 2, 3] delayedCopies, .takeReady 1000000000]).engine.admitDatagram
        1000000000 [4, 5, 6] promptCopy).1 = .immediate [⟨[4, 5, 6], 1, 0, 1⟩, ⟨[4, 5, 6], 1, 1, 1⟩] := by
    decide
  refine ⟨himm, ((immediate_matches_queue_iff pairLimits "dns" 1 .upstream pairEngine rfl
    [.admission 0 [1, 2, 3] delayedCopies, .takeReady 1000000000] 1000000000 [4, 5, 6] promptCopy _ _
    (Prod.ext himm rfl)).2 ?_).2⟩
  exact .inr (by decide)

/-- Two copies through a fresh engine: the immediate path reports a peak of one
datagram, the queue one of two. -/
theorem immediate_copies_peak_low :
    ¬ ∀ (limits : DatagramQueueLimits) (proxy : String) (association : UInt64) (direction : Direction)
        (e₀ : DatagramDirectionEngine), DatagramDirectionEngine.new limits proxy association direction = .ok e₀ →
        ∀ (ops : List DatagramOp) (now : Nat) (payload : List Byte) (policy : PublishedDatagramPolicy)
          (items : List DatagramScheduled) (e' : DatagramDirectionEngine),
          (run DatagramSession.step (.start e₀) ops).engine.admitDatagram now payload policy = (.immediate items, e') →
          ((run DatagramSession.step (.start e₀) ops).engine.queueThenDrain now payload policy).1 = items ∧
            ((run DatagramSession.step (.start e₀) ops).engine.queueThenDrain now payload policy).2.evidence =
              e'.evidence := by
  intro h
  have himm : (pairEngine.admitDatagram 0 [1, 2] promptCopy).1 =
      .immediate [⟨[1, 2], 0, 0, 1⟩, ⟨[1, 2], 0, 1, 1⟩] := by
    decide
  have hev := (h pairLimits "dns" 1 .upstream pairEngine rfl [] 0 [1, 2] promptCopy _ _ (Prod.ext himm rfl)).2
  exact absurd (congrArg DatagramEvidence.highWaterDatagrams hev) (by decide)

end Eggchaos
