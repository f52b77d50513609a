import Eggchaos.Datagram
import Eggchaos.Lib.Runs
import Mathlib.Algebra.Order.BigOperators.Group.List
import Mathlib.Algebra.Order.Monoid.Canonical.Defs
/-!
# Datagram accounting

Every run of one datagram engine keeps its books. `Accounts ev held` says that
the evidence balances with `held` datagrams still inside: every admitted
datagram and every duplicate was emitted, lost, dropped, or is held. The
counters saturate, so the balance is over exact counts (`Ledger`) that the
counters show clamped; each operation is a few entries in that ledger.

`Room` is the scheduler's own account: its two gauges are the queue's length
and bytes, and neither they nor their peaks pass the limits.
-/

namespace Eggchaos
open Lib

/-! ## The ledger -/

/-- The exact counts behind the six counters of the balance. -/
structure Ledger where
  admitted : Nat
  duplicated : Nat
  emitted : Nat
  lost : Nat
  overflowed : Nat
  oversize : Nat

/-- The evidence shows a ledger that balances with `held` datagrams inside. -/
structure Ledger.Shows (l : Ledger) (ev : DatagramEvidence) (held : Nat) : Prop where
  admitted : ev.admittedDatagrams = clampU64 l.admitted
  duplicated : ev.duplicatedCopies = clampU64 l.duplicated
  emitted : ev.emittedDatagrams = clampU64 l.emitted
  lost : ev.configuredLoss = clampU64 l.lost
  overflowed : ev.queueOverflow = clampU64 l.overflowed
  oversize : ev.oversizeDatagrams = clampU64 l.oversize
  balance : l.admitted + l.duplicated = l.emitted + l.lost + l.overflowed + l.oversize + held

def Accounts (ev : DatagramEvidence) (held : Nat) : Prop := ∃ l : Ledger, l.Shows ev held

/-- No counter of the balance has reached `u64::MAX`. Counters only grow, so
none has saturated before either. -/
structure DatagramEvidence.Unsaturated (ev : DatagramEvidence) : Prop where
  admitted : ev.admittedDatagrams < u64Max
  duplicated : ev.duplicatedCopies < u64Max
  emitted : ev.emittedDatagrams < u64Max
  lost : ev.configuredLoss < u64Max
  overflowed : ev.queueOverflow < u64Max
  oversize : ev.oversizeDatagrams < u64Max

theorem clampU64_of_lt {n m : Nat} (h : n = clampU64 m) (hn : n < u64Max) : n = m := by
  simp only [clampU64] at h
  omega

/-- Unsaturated counters are the exact counts. -/
theorem Accounts.balance {ev : DatagramEvidence} {held : Nat} (h : Accounts ev held) (hs : ev.Unsaturated) :
    ev.admittedDatagrams + ev.duplicatedCopies =
      ev.emittedDatagrams + ev.configuredLoss + ev.queueOverflow + ev.oversizeDatagrams + held := by
  obtain ⟨l, hl⟩ := h
  rw [clampU64_of_lt hl.admitted hs.admitted, clampU64_of_lt hl.duplicated hs.duplicated,
    clampU64_of_lt hl.emitted hs.emitted, clampU64_of_lt hl.lost hs.lost,
    clampU64_of_lt hl.overflowed hs.overflowed, clampU64_of_lt hl.oversize hs.oversize]
  exact hl.balance

/-- The fields the balance reads. -/
structure DatagramEvidence.SameBooks (ev ev' : DatagramEvidence) : Prop where
  admitted : ev'.admittedDatagrams = ev.admittedDatagrams
  duplicated : ev'.duplicatedCopies = ev.duplicatedCopies
  emitted : ev'.emittedDatagrams = ev.emittedDatagrams
  lost : ev'.configuredLoss = ev.configuredLoss
  overflowed : ev'.queueOverflow = ev.queueOverflow
  oversize : ev'.oversizeDatagrams = ev.oversizeDatagrams

theorem Accounts.same {ev ev' : DatagramEvidence} {held : Nat} (h : Accounts ev held) (hb : ev.SameBooks ev') :
    Accounts ev' held := by
  obtain ⟨l, hl⟩ := h
  exact ⟨l, hb.admitted ▸ hl.admitted, hb.duplicated ▸ hl.duplicated, hb.emitted ▸ hl.emitted, hb.lost ▸ hl.lost,
    hb.overflowed ▸ hl.overflowed, hb.oversize ▸ hl.oversize, hl.balance⟩

theorem satAdd_shows {n m : Nat} (h : n = clampU64 m) (k : Nat) : satAdd n k = clampU64 (m + k) := by
  rw [h, satAdd_clamp]

/-! ## Entries -/

namespace Accounts

variable {ev : DatagramEvidence} {held : Nat}

theorem admitted (h : Accounts ev held) (bytes : Nat) :
    Accounts { ev with
      admittedDatagrams := satAdd ev.admittedDatagrams 1
      admittedBytes := bytes } (held + 1) := by
  obtain ⟨l, hl⟩ := h
  refine ⟨{ l with admitted := l.admitted + 1 }, { hl with admitted := satAdd_shows hl.admitted 1, balance := ?_ }⟩
  have := hl.balance
  simp only
  omega

theorem oversize (h : Accounts ev (held + 1)) :
    Accounts { ev with oversizeDatagrams := satAdd ev.oversizeDatagrams 1 } held := by
  obtain ⟨l, hl⟩ := h
  refine ⟨{ l with oversize := l.oversize + 1 }, { hl with oversize := satAdd_shows hl.oversize 1, balance := ?_ }⟩
  have := hl.balance
  simp only
  omega

theorem lost (h : Accounts ev (held + 1)) :
    Accounts { ev with configuredLoss := satAdd ev.configuredLoss 1 } held := by
  obtain ⟨l, hl⟩ := h
  refine ⟨{ l with lost := l.lost + 1 }, { hl with lost := satAdd_shows hl.lost 1, balance := ?_ }⟩
  have := hl.balance
  simp only
  omega

theorem overflowed (h : Accounts ev (held + 1)) : Accounts ev.noteOverflow held := by
  obtain ⟨l, hl⟩ := h
  refine ⟨{ l with overflowed := l.overflowed + 1 },
    { hl with overflowed := satAdd_shows hl.overflowed 1, balance := ?_ }⟩
  have := hl.balance
  simp only
  omega

theorem emitted (h : Accounts ev (held + 1)) (size : Nat) : Accounts (ev.noteEmitted size) held := by
  obtain ⟨l, hl⟩ := h
  refine ⟨{ l with emitted := l.emitted + 1 }, { hl with emitted := satAdd_shows hl.emitted 1, balance := ?_ }⟩
  have := hl.balance
  simp only
  omega

theorem queued (h : Accounts ev held) (size : Nat) : Accounts (ev.noteQueued size) held :=
  h.same ⟨rfl, rfl, rfl, rfl, rfl, rfl⟩

theorem foldl_duplicated (copies : List Nat) {n m : Nat} (h : n = clampU64 m) :
    copies.foldl (fun count _ => satAdd count 1) n = clampU64 (m + copies.length) := by
  induction copies generalizing n m with
  | nil => simpa using h
  | cons c cs ih =>
    simp only [List.foldl_cons, List.length_cons]
    rw [ih (satAdd_shows h 1), Nat.add_assoc, Nat.add_comm 1]

theorem duplicated (h : Accounts ev held) (copies : List Nat) :
    Accounts { ev with duplicatedCopies := copies.foldl (fun count _ => satAdd count 1) ev.duplicatedCopies }
      (held + copies.length) := by
  obtain ⟨l, hl⟩ := h
  refine ⟨{ l with duplicated := l.duplicated + copies.length },
    { hl with duplicated := foldl_duplicated copies hl.duplicated, balance := ?_ }⟩
  have := hl.balance
  simp only
  omega

end Accounts

/-! ## The scheduler's gauges -/

/-- The payload bytes of queued candidates. -/
def queueBytes (queue : List Candidate) : Nat := (queue.map (·.payload.length)).sum

/-- With `n` datagrams of `total` bytes inside, the gauges show them, and
neither they nor the peaks pass the limits. -/
structure Room (limits : DatagramQueueLimits) (ev : DatagramEvidence) (n total : Nat) : Prop where
  datagrams : ev.queuedDatagrams = n
  bytes : ev.queuedBytes = total
  fits : n ≤ limits.maxQueuedDatagrams.get
  fitsBytes : total ≤ limits.maxQueuedBytes.get
  peak : ev.highWaterDatagrams ≤ limits.maxQueuedDatagrams.get
  peakBytes : ev.highWaterBytes ≤ limits.maxQueuedBytes.get

/-- The fields the gauges are. -/
structure DatagramEvidence.SameGauges (ev ev' : DatagramEvidence) : Prop where
  datagrams : ev'.queuedDatagrams = ev.queuedDatagrams
  bytes : ev'.queuedBytes = ev.queuedBytes
  peak : ev'.highWaterDatagrams = ev.highWaterDatagrams
  peakBytes : ev'.highWaterBytes = ev.highWaterBytes

theorem DatagramEvidence.SameGauges.trans {ev ev' ev'' : DatagramEvidence} (h : ev.SameGauges ev')
    (h' : ev'.SameGauges ev'') : ev.SameGauges ev'' where
  datagrams := h'.datagrams.trans h.datagrams
  bytes := h'.bytes.trans h.bytes
  peak := h'.peak.trans h.peak
  peakBytes := h'.peakBytes.trans h.peakBytes

namespace Room

variable {limits : DatagramQueueLimits} {ev ev' : DatagramEvidence} {n total size : Nat}

theorem same (h : Room limits ev n total) (hg : ev.SameGauges ev') : Room limits ev' n total where
  datagrams := hg.datagrams.trans h.datagrams
  bytes := hg.bytes.trans h.bytes
  fits := h.fits
  fitsBytes := h.fitsBytes
  peak := hg.peak ▸ h.peak
  peakBytes := hg.peakBytes ▸ h.peakBytes

theorem queued (h : Room limits ev n total) (hn : n + 1 ≤ limits.maxQueuedDatagrams.get)
    (hb : total + size ≤ limits.maxQueuedBytes.get) :
    Room limits (ev.noteQueued size) (n + 1) (total + size) := by
  have hn' : satAdd ev.queuedDatagrams 1 = n + 1 := by
    rw [h.datagrams]
    exact clampU64_of_le (hn.trans limits.maxQueuedDatagrams.le_max)
  have hb' : satAdd ev.queuedBytes size = total + size := by
    rw [h.bytes]
    exact clampU64_of_le (hb.trans limits.maxQueuedBytes.le_max)
  refine ⟨hn', hb', hn, hb, ?_, ?_⟩
  · simp only [DatagramEvidence.noteQueued, hn']
    exact Nat.max_le.2 ⟨h.peak, hn⟩
  · simp only [DatagramEvidence.noteQueued, hb']
    exact Nat.max_le.2 ⟨h.peakBytes, hb⟩

theorem emitted (h : Room limits ev (n + 1) (total + size)) : Room limits (ev.noteEmitted size) n total where
  datagrams := by simp [DatagramEvidence.noteEmitted, h.datagrams]
  bytes := by simp [DatagramEvidence.noteEmitted, h.bytes]
  fits := Nat.le_of_succ_le h.fits
  fitsBytes := Nat.le_of_add_right_le h.fitsBytes
  peak := h.peak
  peakBytes := h.peakBytes

end Room

/-! ## The stages -/

namespace DatagramDirectionEngine

/-- The part of the engine that the stages leave alone. -/
structure Staging (e e' : DatagramDirectionEngine) : Prop where
  limits : e'.limits = e.limits
  proxy : e'.proxy = e.proxy
  association : e'.association = e.association
  direction : e'.direction = e.direction
  queue : e'.queue = e.queue
  gauges : e.evidence.SameGauges e'.evidence

theorem Staging.refl (e : DatagramDirectionEngine) : Staging e e :=
  ⟨rfl, rfl, rfl, rfl, rfl, ⟨rfl, rfl, rfl, rfl⟩⟩

theorem Staging.trans {e e' e'' : DatagramDirectionEngine} (h : Staging e e') (h' : Staging e' e'') :
    Staging e e'' where
  limits := h'.limits.trans h.limits
  proxy := h'.proxy.trans h.proxy
  association := h'.association.trans h.association
  direction := h'.direction.trans h.direction
  queue := h'.queue.trans h.queue
  gauges := h.gauges.trans h'.gauges

/-- `bandwidth_delay` changes the buckets and nothing else. -/
theorem bandwidthDelay_spec (e : DatagramDirectionEngine) (id : String) (now bytes rate burst : Nat) :
    ∃ buckets, (e.bandwidthDelay id now bytes rate burst).2 = { e with buckets } := by
  simp only [bandwidthDelay]
  split <;> exact ⟨_, rfl⟩

theorem noteDelayed_same (ev : DatagramEvidence) (kind : DatagramFaultKind) (added : Nat) :
    ev.SameBooks (ev.noteDelayed kind added) ∧ ev.SameGauges (ev.noteDelayed kind added) := by
  cases kind <;> exact ⟨⟨rfl, rfl, rfl, rfl, rfl, rfl⟩, ⟨rfl, rfl, rfl, rfl⟩⟩

/-- One activated stage over one candidate: the candidate's place in the books
goes to its outputs. -/
theorem apply_spec (e : DatagramDirectionEngine) (now : Nat) (fault : DatagramFaultSpec) (rng : DeterministicRng)
    (nextCopy : Nat) (c : Staged) :
    Staging e (e.apply now fault rng nextCopy c).2.1 ∧
      ∀ held, Accounts e.evidence (held + 1) →
        Accounts (e.apply now fault rng nextCopy c).2.1.evidence (held + (e.apply now fault rng nextCopy c).1.length) := by
  have hactive : ∀ held, Accounts e.evidence held → Accounts (e.evidence.noteActivated fault.kind) held :=
    fun held h => h.same ⟨rfl, rfl, rfl, rfl, rfl, rfl⟩
  generalize hk : fault.kind = kind at *
  cases kind with
  | loss =>
    simp only [apply, hk]
    refine ⟨⟨rfl, rfl, rfl, rfl, rfl, ⟨rfl, rfl, rfl, rfl⟩⟩, ?_⟩
    intro held h
    exact (hactive _ h).lost
  | duplicate copies =>
    simp only [apply, hk]
    refine ⟨⟨rfl, rfl, rfl, rfl, rfl, ⟨rfl, rfl, rfl, rfl⟩⟩, ?_⟩
    intro held h
    have := (hactive _ h).duplicated (duplicates nextCopy copies.toNat)
    simp only [List.length_cons, List.length_map]
    rwa [Nat.add_assoc, Nat.add_comm 1] at this
  | payloadCorrupt count =>
    simp only [apply, hk]
    split
    · refine ⟨⟨rfl, rfl, rfl, rfl, rfl, ⟨rfl, rfl, rfl, rfl⟩⟩, ?_⟩
      intro held h
      exact hactive _ h
    · refine ⟨⟨rfl, rfl, rfl, rfl, rfl, ⟨rfl, rfl, rfl, rfl⟩⟩, ?_⟩
      intro held h
      exact (hactive _ h).same ⟨rfl, rfl, rfl, rfl, rfl, rfl⟩
  | bandwidth rate burst =>
    simp only [apply, hk]
    obtain ⟨buckets, hb⟩ := bandwidthDelay_spec { e with evidence := e.evidence.noteActivated (.bandwidth rate burst) }
      fault.id.value now c.bytes.length rate.get burst.get
    rw [hb]
    refine ⟨⟨rfl, rfl, rfl, rfl, rfl, ⟨rfl, rfl, rfl, rfl⟩⟩, ?_⟩
    intro held h
    exact (hactive _ h).same (noteDelayed_same _ _ _).1
  | delay delay jitter =>
    simp only [apply, hk]
    refine ⟨⟨rfl, rfl, rfl, rfl, rfl, ⟨rfl, rfl, rfl, rfl⟩⟩, ?_⟩
    intro held h
    exact (hactive _ h).same (noteDelayed_same _ _ _).1
  | reorder hold =>
    simp only [apply, hk]
    refine ⟨⟨rfl, rfl, rfl, rfl, rfl, ⟨rfl, rfl, rfl, rfl⟩⟩, ?_⟩
    intro held h
    exact (hactive _ h).same (noteDelayed_same _ _ _).1

theorem runCandidate_spec (e : DatagramDirectionEngine) (now : Nat) (policy : PublishedDatagramPolicy)
    (ordinal stage : Nat) (fault : DatagramFaultSpec) (nextCopy : Nat) (c : Staged) :
    Staging e (e.runCandidate now policy ordinal stage fault nextCopy c).2.1 ∧
      ∀ held, Accounts e.evidence (held + 1) →
        Accounts (e.runCandidate now policy ordinal stage fault nextCopy c).2.1.evidence
          (held + (e.runCandidate now policy ordinal stage fault nextCopy c).1.length) := by
  simp only [runCandidate]
  split
  · exact apply_spec e now fault _ nextCopy c
  · exact ⟨Staging.refl e, fun held h => h⟩

theorem runStage_spec (now : Nat) (policy : PublishedDatagramPolicy) (ordinal stage : Nat) (fault : DatagramFaultSpec)
    (cs : List Staged) (e : DatagramDirectionEngine) (nextCopy : Nat) :
    Staging e (runStage now policy ordinal stage fault e nextCopy cs).2.1 ∧
      ∀ held, Accounts e.evidence (held + cs.length) →
        Accounts (runStage now policy ordinal stage fault e nextCopy cs).2.1.evidence
          (held + (runStage now policy ordinal stage fault e nextCopy cs).1.length) := by
  induction cs generalizing e nextCopy with
  | nil => exact ⟨Staging.refl e, fun held h => h⟩
  | cons c cs ih =>
    obtain ⟨hs, ha⟩ := runCandidate_spec e now policy ordinal stage fault nextCopy c
    simp only [runStage]
    generalize e.runCandidate now policy ordinal stage fault nextCopy c = r at *
    obtain ⟨out, e', nextCopy'⟩ := r
    obtain ⟨hs', ha'⟩ := ih e' nextCopy'
    refine ⟨hs.trans hs', ?_⟩
    intro held h
    -- The rest of the stage holds the outputs of this candidate.
    have hout : Accounts e'.evidence (held + out.length + cs.length) := by
      have := ha (held + cs.length) (by rwa [List.length_cons, ← Nat.add_assoc] at h)
      rwa [Nat.add_right_comm] at this
    rw [List.length_append, ← Nat.add_assoc]
    exact ha' _ hout

theorem runStages_spec (now : Nat) (policy : PublishedDatagramPolicy) (ordinal : Nat) (faults : List DatagramFaultSpec)
    (stage : Nat) (e : DatagramDirectionEngine) (nextCopy : Nat) (cs : List Staged) :
    Staging e (runStages now policy ordinal stage faults e nextCopy cs).2 ∧
      ∀ held, Accounts e.evidence (held + cs.length) →
        Accounts (runStages now policy ordinal stage faults e nextCopy cs).2.evidence
          (held + (runStages now policy ordinal stage faults e nextCopy cs).1.length) := by
  induction faults generalizing stage e nextCopy cs with
  | nil => exact ⟨Staging.refl e, fun held h => h⟩
  | cons fault faults ih =>
    obtain ⟨hs, ha⟩ := runStage_spec now policy ordinal stage fault cs e nextCopy
    simp only [runStages]
    generalize runStage now policy ordinal stage fault e nextCopy cs = r at *
    obtain ⟨cs', e', nextCopy'⟩ := r
    obtain ⟨hs', ha'⟩ := ih (stage + 1) e' nextCopy' cs'
    exact ⟨hs.trans hs', fun held h => ha' held (ha held h)⟩

/-! ## What an operation keeps -/

/-- The limits are the validated ones the engine was built with, the gauges show
the queue, and the evidence balances with the queue and `held` more datagrams
inside. -/
structure Sound (e : DatagramDirectionEngine) (limits : DatagramQueueLimits) (held : Nat) : Prop where
  valid : e.limits = limits ∧ limits.validate = .ok limits
  room : Room e.limits e.evidence e.queue.length (queueBytes e.queue)
  books : Accounts e.evidence (held + e.queue.length)

variable {e e' : DatagramDirectionEngine} {limits : DatagramQueueLimits} {held : Nat}

theorem push_perm (c : Candidate) (queue : List Candidate) : (push c queue).Perm (c :: queue) := by
  induction queue with
  | nil => exact .refl _
  | cons d ds ih =>
    simp only [push]
    split
    · exact (ih.cons d).trans (.swap c d ds)
    · exact .refl _

theorem queueBytes_perm {queue queue' : List Candidate} (h : queue.Perm queue') :
    queueBytes queue = queueBytes queue' := (h.map _).sum_eq

theorem queueBytes_cons (c : Candidate) (queue : List Candidate) :
    queueBytes (c :: queue) = c.payload.length + queueBytes queue := by
  simp [queueBytes]

/-- Validated limits lie below the saturation point, so a bound on a saturating
sum is one on the sum. -/
theorem Sound.exact (h : Sound e limits held) {a b : Nat} :
    (satAdd a b ≤ e.limits.maxQueuedBytes.get → a + b ≤ e.limits.maxQueuedBytes.get) ∧
      (satAdd a b ≤ e.limits.maxQueuedDatagrams.get → a + b ≤ e.limits.maxQueuedDatagrams.get) := by
  obtain ⟨hl, hv⟩ := h.valid
  rw [hl]
  simp only [DatagramQueueLimits.validate] at hv
  split at hv
  · cases hv
  · have hmax : u64Max = 2 ^ 64 - 1 := rfl
    simp only [satAdd, clampU64]
    omega

theorem Sound.staged {held' : Nat} (h : Sound e limits held) (hs : Staging e e')
    (ha : Accounts e'.evidence (held' + e.queue.length)) : Sound e' limits held' := by
  refine ⟨by rw [hs.limits]; exact h.valid, ?_, hs.queue ▸ ha⟩
  rw [hs.limits, hs.queue]
  exact h.room.same hs.gauges

theorem Sound.enqueue (h : Sound e limits (held + 1)) (at_ ordinal copy : Nat) (payload : List Byte) (generation : Nat)
    (hn : e.queue.length + 1 ≤ e.limits.maxQueuedDatagrams.get)
    (hb : queueBytes e.queue + payload.length ≤ e.limits.maxQueuedBytes.get) :
    Sound (e.enqueue at_ ordinal copy payload generation) limits held := by
  have hp := push_perm ⟨at_, ordinal, copy, payload, generation⟩ e.queue
  have hbytes : queueBytes (push ⟨at_, ordinal, copy, payload, generation⟩ e.queue) =
      queueBytes e.queue + payload.length := by
    rw [queueBytes_perm hp, queueBytes_cons, Nat.add_comm]
  have hlen : (push ⟨at_, ordinal, copy, payload, generation⟩ e.queue).length = e.queue.length + 1 := hp.length_eq
  refine ⟨h.valid, ?_, ?_⟩
  · simp only [DatagramDirectionEngine.enqueue, hbytes, hlen]
    exact h.room.queued hn hb
  · simp only [DatagramDirectionEngine.enqueue, hlen]
    have := h.books.queued payload.length
    rwa [Nat.add_assoc, Nat.add_comm 1] at this

theorem Sound.overflowed (h : Sound e limits (held + 1)) : Sound { e with evidence := e.evidence.noteOverflow } limits held := by
  refine ⟨h.valid, h.room.same ⟨rfl, rfl, rfl, rfl⟩, ?_⟩
  have := h.books
  rw [Nat.add_right_comm] at this
  exact this.overflowed

theorem Sound.emitted (h : Sound e limits (held + 1)) (ordinal : Nat) (payload : List Byte) (generation copy : Nat)
    (hn : e.queue.length + 1 ≤ e.limits.maxQueuedDatagrams.get)
    (hb : queueBytes e.queue + payload.length ≤ e.limits.maxQueuedBytes.get) :
    Sound (e.emitImmediate ordinal payload generation copy).2 limits held := by
  refine ⟨h.valid, (h.room.queued hn hb).emitted, ?_⟩
  have := h.books
  rw [Nat.add_right_comm] at this
  exact (this.queued payload.length).emitted payload.length

theorem emitAll_sound (ordinal generation : Nat) (cs : List Staged) (h : Sound e limits (held + cs.length))
    (hn : e.queue.length + 1 ≤ e.limits.maxQueuedDatagrams.get)
    (hb : ∀ c ∈ cs, queueBytes e.queue + c.bytes.length ≤ e.limits.maxQueuedBytes.get) :
    Sound (emitAll ordinal generation e cs).2 limits held := by
  induction cs generalizing e with
  | nil => exact h
  | cons c cs ih =>
    rw [List.length_cons, ← Nat.add_assoc] at h
    exact ih (h.emitted ordinal c.bytes generation c.copy hn (hb c (by simp))) hn fun d hd => hb d (by simp [hd])

theorem queueAll_sound (now ordinal generation : Nat) (cs : List Staged) (h : Sound e limits (held + cs.length)) :
    Sound (queueAll now ordinal generation e cs).2 limits held := by
  induction cs generalizing e with
  | nil => exact h
  | cons c cs ih =>
    rw [List.length_cons, ← Nat.add_assoc] at h
    simp only [queueAll]
    split
    · exact ih h.overflowed
    · next hroom =>
      push Not at hroom
      have hb := h.exact.1 hroom.2
      rw [h.room.bytes] at hb
      exact ih (h.enqueue _ _ _ _ _ hroom.1 hb)

theorem settle_sound (now ordinal generation : Nat) (cs : List Staged) (h : Sound e limits (held + cs.length)) :
    Sound (e.settle now ordinal generation cs).2 limits held := by
  simp only [settle]
  split
  · next himm =>
    simp only [isImmediate, totalBytes, Bool.and_eq_true, List.isEmpty_iff] at himm
    obtain ⟨⟨_, hq⟩, hfits⟩ := himm
    split at hfits
    · next bytes hbytes =>
      split at hbytes
      · cases hbytes
        simp only [fitsAll, Bool.and_eq_true, decide_eq_true_eq] at hfits
        have hb := h.exact.1 hfits.2
        have hq0 : e.evidence.queuedBytes = 0 := by rw [h.room.bytes, hq]; rfl
        refine emitAll_sound ordinal generation cs h ?_ ?_
        · rw [hq]
          exact e.limits.maxQueuedDatagrams.pos
        · intro c hc
          have hle : c.bytes.length ≤ (cs.map (·.bytes.length)).sum :=
            List.le_sum_of_mem (List.mem_map.2 ⟨c, hc, rfl⟩)
          rw [hq, queueBytes, List.map_nil, List.sum_nil]
          omega
      · cases hbytes
    · cases hfits
  · exact queueAll_sound now ordinal generation cs h

theorem count_staging (e : DatagramDirectionEngine) (payload : List Byte) : Staging e (e.count payload) :=
  ⟨rfl, rfl, rfl, rfl, rfl, ⟨rfl, rfl, rfl, rfl⟩⟩

theorem count_sound (h : Sound e limits held) (payload : List Byte) : Sound (e.count payload) limits (held + 1) := by
  refine h.staged (count_staging e payload) ?_
  have := h.books.admitted (satAdd e.evidence.admittedBytes payload.length)
  rwa [Nat.add_right_comm] at this

theorem adopt_staging (e : DatagramDirectionEngine) (policy : PublishedDatagramPolicy) :
    Staging e (e.adopt policy) ∧ e.evidence.SameBooks (e.adopt policy).evidence := by
  simp only [adopt]
  split <;> exact ⟨⟨rfl, rfl, rfl, rfl, rfl, ⟨rfl, rfl, rfl, rfl⟩⟩, ⟨rfl, rfl, rfl, rfl, rfl, rfl⟩⟩

theorem fits_spec (h : Sound e limits held) {bytes : Nat} (hf : e.fits bytes = true) :
    e.queue.length + 1 ≤ e.limits.maxQueuedDatagrams.get ∧
      queueBytes e.queue + bytes ≤ e.limits.maxQueuedBytes.get := by
  simp only [fits, Bool.and_eq_true, decide_eq_true_eq] at hf
  refine ⟨hf.1, ?_⟩
  have := h.exact.1 hf.2
  rwa [h.room.bytes] at this

theorem admitDatagram_sound (h : Sound e limits held) (now : Nat) (payload : List Byte) (policy : PublishedDatagramPolicy) :
    Sound (e.admitDatagram now payload policy).2 limits held := by
  have hc := count_sound h payload
  simp only [admitDatagram]
  generalize e.count payload = counted at *
  split
  · refine ⟨hc.valid, hc.room.same ⟨rfl, rfl, rfl, rfl⟩, ?_⟩
    have := hc.books
    rw [Nat.add_right_comm] at this
    exact this.oversize
  · obtain ⟨hs, hb⟩ := adopt_staging counted policy
    have ha := hc.staged hs (hc.books.same hb)
    generalize counted.adopt policy = adopted at *
    split
    · split
      · next hfit =>
        have hf := fits_spec ha (Bool.and_eq_true_iff.1 hfit).2
        exact ha.emitted e.ordinal payload policy.generation 0 hf.1 hf.2
      · split
        · next hfit =>
          have hf := fits_spec ha hfit
          exact ha.enqueue _ _ _ _ _ hf.1 hf.2
        · exact ha.overflowed
    · obtain ⟨hs', hb'⟩ := runStages_spec now policy e.ordinal policy.plan.faults 0 adopted 1 [⟨0, payload, 0⟩]
      simp only [candidates]
      generalize runStages now policy e.ordinal 0 policy.plan.faults adopted 1 [⟨0, payload, 0⟩] = r at *
      obtain ⟨cs, staged⟩ := r
      have hbooks := hb' (held + adopted.queue.length) (by
        have := ha.books
        rwa [Nat.add_right_comm] at this)
      rw [Nat.add_right_comm] at hbooks
      exact settle_sound now e.ordinal policy.generation cs (ha.staged hs' hbooks)

theorem drain_sound (now : Nat) (queue : List Candidate) {ev : DatagramEvidence}
    (hr : Room limits ev queue.length (queueBytes queue)) (ha : Accounts ev (held + queue.length)) :
    Room limits (drain now queue ev).2.2 (drain now queue ev).2.1.length (queueBytes (drain now queue ev).2.1) ∧
      Accounts (drain now queue ev).2.2 (held + (drain now queue ev).2.1.length) := by
  induction queue generalizing ev with
  | nil => exact ⟨hr, ha⟩
  | cons c cs ih =>
    simp only [drain]
    split
    · rw [List.length_cons, queueBytes_cons, Nat.add_comm c.payload.length] at hr
      rw [List.length_cons, ← Nat.add_assoc] at ha
      exact ih hr.emitted (ha.emitted _)
    · exact ⟨hr, ha⟩

theorem takeReady_sound (h : Sound e limits held) (now : Nat) : Sound (e.takeReady now).2 limits held := by
  obtain ⟨hr, ha⟩ := drain_sound now e.queue h.room h.books
  exact ⟨h.valid, hr, ha⟩

theorem discardAll_sound (h : Sound e limits held) : Sound e.discardAll.2 limits (held + e.discardAll.1) := by
  refine ⟨h.valid, ?_, h.books.same ⟨rfl, rfl, rfl, rfl, rfl, rfl⟩⟩
  exact ⟨rfl, rfl, Nat.zero_le _, Nat.zero_le _, h.room.peak, h.room.peakBytes⟩

end DatagramDirectionEngine

/-! ## Runs -/

inductive DatagramOp where
  | admission (now : Nat) (payload : List Byte) (policy : PublishedDatagramPolicy)
  | takeReady (now : Nat)
  | discardAll

/-- An engine and the total that its `discard_all` calls have returned. -/
structure DatagramSession where
  engine : DatagramDirectionEngine
  discarded : Nat

def DatagramSession.step (s : DatagramSession) : DatagramOp → DatagramSession
  | .admission now payload policy => { s with engine := (s.engine.admitDatagram now payload policy).2 }
  | .takeReady now => { s with engine := (s.engine.takeReady now).2 }
  | .discardAll => ⟨s.engine.discardAll.2, s.discarded + s.engine.discardAll.1⟩

/-- A fresh engine over the limits, at the start of a run. -/
def DatagramSession.start (engine : DatagramDirectionEngine) : DatagramSession := ⟨engine, 0⟩

theorem DatagramDirectionEngine.new_evidence {limits : DatagramQueueLimits} {proxy : String} {association : UInt64}
    {direction : Direction} {e : DatagramDirectionEngine} (h : new limits proxy association direction = .ok e) :
    e.evidence = {} := by
  simp only [new] at h
  split at h
  · cases h
  · cases h
    rfl

theorem DatagramDirectionEngine.new_sound {limits : DatagramQueueLimits} {proxy : String} {association : UInt64}
    {direction : Direction} {e : DatagramDirectionEngine} (h : new limits proxy association direction = .ok e) :
    e.Sound limits 0 := by
  simp only [new] at h
  split at h
  · cases h
  · next limits' hl =>
    cases h
    have hself : limits' = limits := by
      simp only [DatagramQueueLimits.validate] at hl
      split at hl
      · cases hl
      · cases hl; rfl
    subst hself
    refine ⟨⟨rfl, hl⟩, ⟨rfl, rfl, Nat.zero_le _, Nat.zero_le _, Nat.zero_le _, Nat.zero_le _⟩, ?_⟩
    exact ⟨⟨0, 0, 0, 0, 0, 0⟩, rfl, rfl, rfl, rfl, rfl, rfl, rfl⟩

theorem DatagramSession.step_sound {limits : DatagramQueueLimits} (s : DatagramSession) (op : DatagramOp)
    (h : s.engine.Sound limits s.discarded) :
    (s.step op).engine.Sound limits (s.step op).discarded := by
  cases op with
  | admission now payload policy => exact DatagramDirectionEngine.admitDatagram_sound h now payload policy
  | takeReady now => exact DatagramDirectionEngine.takeReady_sound h now
  | discardAll => exact DatagramDirectionEngine.discardAll_sound h

theorem DatagramSession.run_sound {e : DatagramDirectionEngine} {limits : DatagramQueueLimits} (h : e.Sound limits 0) (ops : List DatagramOp) :
    (run step (start e) ops).engine.Sound limits (run step (start e) ops).discarded :=
  run_inv (fun s : DatagramSession => s.engine.Sound limits s.discarded) step_sound h ops

/-- In every run of a datagram engine the gauges show the queue, which never
passes the limits, nor do the peaks; and while no counter is saturated, every
admitted datagram and every duplicate was emitted, is queued, was lost,
overflowed or oversize, or was discarded. -/
theorem datagram_accounting (limits : DatagramQueueLimits) (proxy : String) (association : UInt64)
    (direction : Direction) (e : DatagramDirectionEngine)
    (hnew : DatagramDirectionEngine.new limits proxy association direction = .ok e) (ops : List DatagramOp) :
    let s := run DatagramSession.step (.start e) ops
    let ev := s.engine.evidence
    (ev.Unsaturated →
      ev.admittedDatagrams + ev.duplicatedCopies =
        ev.emittedDatagrams + ev.queuedDatagrams + ev.configuredLoss + ev.queueOverflow + ev.oversizeDatagrams +
          s.discarded) ∧
      ev.queuedDatagrams = s.engine.queue.length ∧ ev.queuedBytes = queueBytes s.engine.queue ∧
      s.engine.limits = limits ∧
      s.engine.queue.length ≤ limits.maxQueuedDatagrams.get ∧ queueBytes s.engine.queue ≤ limits.maxQueuedBytes.get ∧
      ev.highWaterDatagrams ≤ limits.maxQueuedDatagrams.get ∧ ev.highWaterBytes ≤ limits.maxQueuedBytes.get := by
  intro s ev
  have h : s.engine.Sound limits s.discarded := DatagramSession.run_sound (DatagramDirectionEngine.new_sound hnew) ops
  obtain ⟨⟨hl, -⟩, hroom, hbooks⟩ := h
  rw [hl] at hroom
  refine ⟨?_, hroom.datagrams, hroom.bytes, hl, hroom.fits, hroom.fitsBytes, hroom.peak, hroom.peakBytes⟩
  intro hs
  have hbal := hbooks.balance hs
  have hqueued : ev.queuedDatagrams = s.engine.queue.length := hroom.datagrams
  change ev.admittedDatagrams + ev.duplicatedCopies =
    ev.emittedDatagrams + ev.configuredLoss + ev.queueOverflow + ev.oversizeDatagrams +
      (s.discarded + s.engine.queue.length) at hbal
  omega

/-- Two queued datagrams of at most eight bytes each. -/
def pairLimits : DatagramQueueLimits :=
  ⟨⟨2, by decide, by decide⟩, ⟨16, by decide, by decide⟩, ⟨8, by decide, by decide⟩⟩

def pairEngine : DatagramDirectionEngine where
  limits := pairLimits
  proxy := "dns"
  association := 1
  direction := .upstream
  ordinal := 0
  queue := []
  evidence := {}
  buckets := fun _ => none
  bucketsGeneration := 0

def copiesId : FaultId := ⟨"copies", by decide, by decide⟩

/-- Two extra copies of every datagram, held for a second. -/
def delayedCopies : PublishedDatagramPolicy where
  generation := 1
  plan := ⟨[⟨copiesId, .one, .duplicate 2⟩, ⟨⟨"hold", by decide, by decide⟩, .one, .reorder 1000000000⟩]⟩
  seedNamespace := 7
  fits := one_le_u64Max
  valid := by decide

/-- Three copies meet a queue of two, the queued ones are emitted a second later,
and of the next three copies the two queued ones are discarded. -/
theorem datagram_accounting_copies :
    let s := run DatagramSession.step (.start pairEngine)
      [.admission 0 [1, 2, 3] delayedCopies, .takeReady 1000000000, .admission 2000000000 [4] delayedCopies, .discardAll]
    s.engine.evidence.emittedDatagrams = 2 ∧ s.engine.evidence.queueOverflow = 2 ∧ s.discarded = 2 ∧
      s.engine.evidence.admittedDatagrams + s.engine.evidence.duplicatedCopies =
        s.engine.evidence.emittedDatagrams + s.engine.evidence.queuedDatagrams + s.engine.evidence.configuredLoss +
          s.engine.evidence.queueOverflow + s.engine.evidence.oversizeDatagrams + s.discarded := by
  have h := datagram_accounting pairLimits "dns" 1 .upstream pairEngine rfl
    [.admission 0 [1, 2, 3] delayedCopies, .takeReady 1000000000, .admission 2000000000 [4] delayedCopies, .discardAll]
  refine ⟨by decide, by decide, by decide, h.1 ?_⟩
  exact ⟨by decide, by decide, by decide, by decide, by decide, by decide⟩

end Eggchaos
