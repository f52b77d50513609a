import Eggchaos.Schedule
/-!
# The wire vocabulary of faults

The fault kinds of the `/v1` schema in `stream.rs` and their conversions from
and to the native kinds of the plans. A count on the wire is an unsigned 64-bit
integer and a duration one in nanoseconds. The conversions are inverse to each
other, except that the wire bounds the buffer of a latency fault and the native
plan does not (`FaultKindV1.fromCore_intoCore`, `FaultKindV1.intoCore_fromCore_iff`).
-/

namespace Eggchaos
open Lib

def maxLatencyBufferBytes : Nat := 64 * 1024 * 1024

theorem toNat_le_u64Max (value : UInt64) : value.toNat ≤ u64Max := by
  have := value.toNat_lt
  have hmax : u64Max = 2 ^ 64 - 1 := rfl
  omega

namespace NonZeroU64

/-- `NonZeroU64::new`. -/
def new (value : UInt64) : Option NonZeroU64 :=
  if h : 0 < value.toNat then some ⟨value.toNat, h, toNat_le_u64Max value⟩ else none

/-- The value on the wire. -/
def toUInt64 (value : NonZeroU64) : UInt64 := UInt64.ofNat value.get

end NonZeroU64

namespace Wire

/-- `Duration::from_nanos`. -/
def duration (nanos : UInt64) : Nat := nanos.toNat

/-- The nanoseconds of a duration, saturating. -/
def ns (duration : Nat) : UInt64 := UInt64.ofNat (min duration u64Max)

/-- A wire count that must not be zero, with the text of its error. -/
def nonzero (error : String) (value : UInt64) : Except String NonZeroU64 :=
  match NonZeroU64.new value with
  | some value => .ok value
  | none => .error error

/-- The `finite_probability` of `into_core`. -/
def finiteProbability (field : String) (value : Binary64) : Except String Probability :=
  if value.any fun q => decide (0 ≤ q ∧ q ≤ 1) then (Probability.new value).mapError ValidationError.message
  else .error (field ++ " must be finite and between 0 and 1")

end Wire

/-! ## Stream faults -/

inductive FaultKindV1 where
  | latency (delayNs jitterNs maxBufferBytes : UInt64)
  | bandwidth (bytesPerSecond burstBytes : UInt64)
  | blackhole (closeAfterNs : Option UInt64)
  | limitData (bytes : UInt64)
  | slowClose (delayNs : UInt64)
  | slice (averageSize variation delayNs : UInt64)
  | disconnect (afterNs : UInt64) (hardReset : Bool)
  | streamLoss (lossRate correlation : Binary64)
deriving DecidableEq, Repr

namespace FaultKindV1
open Wire

/-- `FaultKindV1::into_core`. -/
def intoCore : FaultKindV1 → Except String FaultKind
  | latency delayNs jitterNs maxBufferBytes => do
    if maxLatencyBufferBytes < maxBufferBytes.toNat then
      throw ("max_buffer_bytes must be at most " ++ toString maxLatencyBufferBytes)
    let maxBufferBytes ← nonzero "max_buffer_bytes must be non-zero" maxBufferBytes
    return .latency ⟨duration delayNs, duration jitterNs, maxBufferBytes⟩
  | bandwidth bytesPerSecond burstBytes => do
    let bytesPerSecond ← nonzero "bytes_per_second must be non-zero" bytesPerSecond
    let burstBytes ← nonzero "burst_bytes must be non-zero" burstBytes
    return .bandwidth ⟨bytesPerSecond, burstBytes⟩
  | blackhole closeAfterNs => return .blackhole ⟨closeAfterNs.map duration⟩
  | limitData bytes => do
    let bytes ← nonzero "bytes must be non-zero" bytes
    return .limitData ⟨bytes⟩
  | slowClose delayNs => return .slowClose ⟨duration delayNs⟩
  | slice averageSize variation delayNs => do
    let averageSize ← nonzero "average_size must be non-zero" averageSize
    return .slice ⟨averageSize, variation.toNat, duration delayNs⟩
  | disconnect afterNs hardReset => return .disconnect ⟨duration afterNs, hardReset⟩
  | streamLoss lossRate correlation => do
    let lossRate ← finiteProbability "loss_rate" lossRate
    let correlation ← finiteProbability "correlation" correlation
    return .streamLoss ⟨lossRate, correlation⟩

/-- `FaultKindV1::from_core`. -/
def fromCore : FaultKind → FaultKindV1
  | .latency v => latency (ns v.delay) (ns v.jitter) v.maxBufferBytes.toUInt64
  | .bandwidth v => bandwidth v.bytesPerSecond.toUInt64 v.burstBytes.toUInt64
  | .blackhole v => blackhole (v.closeAfter.map ns)
  | .limitData v => limitData v.bytes.toUInt64
  | .slowClose v => slowClose (ns v.delay)
  | .slice v => slice v.averageSize.toUInt64 (UInt64.ofNat v.variation) (ns v.delay)
  | .disconnect v => disconnect (ns v.after) v.hardReset
  | .streamLoss v => streamLoss v.lossRate.toBinary64 v.correlation.toBinary64

end FaultKindV1

/-! ## Datagram faults -/

inductive DatagramFaultKindV1 where
  | delay (delayNs jitterNs : UInt64)
  | loss
  | duplicate (additionalCopies : UInt8)
  | reorder (holdNs : UInt64)
  | payloadCorrupt (bytes : UInt64)
  | bandwidth (bytesPerSecond burstBytes : UInt64)
deriving DecidableEq, Repr

namespace DatagramFaultKindV1
open Wire

/-- `DatagramFaultKindV1::into_core`. -/
def intoCore : DatagramFaultKindV1 → Except String DatagramFaultKind
  | delay delayNs jitterNs => return .delay (duration delayNs) (duration jitterNs)
  | loss => return .loss
  | duplicate additionalCopies =>
    if 1 ≤ additionalCopies ∧ additionalCopies ≤ 16 then return .duplicate additionalCopies
    else throw "additional_copies must be in 1..=16"
  | reorder holdNs => return .reorder (duration holdNs)
  | payloadCorrupt bytes => do
    let bytes ← nonzero "bytes must be nonzero" bytes
    return .payloadCorrupt bytes
  | bandwidth bytesPerSecond burstBytes => do
    let bytesPerSecond ← nonzero "bytes_per_second must be nonzero" bytesPerSecond
    let burstBytes ← nonzero "burst_bytes must be nonzero" burstBytes
    return .bandwidth bytesPerSecond burstBytes

/-- `DatagramFaultKindV1::from_core`. -/
def fromCore : DatagramFaultKind → DatagramFaultKindV1
  | .delay delay' jitter => delay (ns delay') (ns jitter)
  | .loss => loss
  | .duplicate additionalCopies => duplicate additionalCopies
  | .reorder hold => reorder (ns hold)
  | .payloadCorrupt bytes => payloadCorrupt bytes.toUInt64
  | .bandwidth bytesPerSecond burstBytes => bandwidth bytesPerSecond.toUInt64 burstBytes.toUInt64

end DatagramFaultKindV1

/-! ## The values and their wire forms -/

theorem mapM_map_ok {ε α β : Type} {f : β → Except ε α} {g : α → β} {l : List α} :
    (l.map g).mapM f = .ok l ↔ ∀ a ∈ l, f (g a) = .ok a := by
  induction l with
  | nil => simp; rfl
  | cons a l ih =>
    rw [List.map_cons, List.mapM_cons, List.forall_mem_cons, ← ih]
    constructor
    · intro h
      obtain ⟨b, hb, h⟩ := except_bind_ok h
      obtain ⟨m, hm, h⟩ := except_bind_ok h
      cases h
      exact ⟨hb, hm⟩
    · intro h
      rw [h.1, h.2]
      rfl

theorem Probability.toBinary64_of_new {value : Binary64} {p : Probability} (h : Probability.new value = .ok p) :
    p.toBinary64 = value := by
  cases value with
  | none => cases h
  | some q =>
    simp only [Probability.new] at h
    split at h
    · cases h; rfl
    · cases h

namespace Wire

@[simp] theorem ns_duration (nanos : UInt64) : ns (duration nanos) = nanos := by
  rw [ns, duration, min_eq_left (toNat_le_u64Max nanos), UInt64.ofNat_toNat]

theorem duration_ns {d : Nat} (h : d ≤ u64Max) : duration (ns d) = d := by
  have hmax : u64Max = 2 ^ 64 - 1 := rfl
  rw [ns, duration, min_eq_left h]
  exact UInt64.toNat_ofNat_of_lt' (by rw [UInt64.size]; omega)

theorem toNat_toUInt64 (value : NonZeroU64) : value.toUInt64.toNat = value.get := by
  have := value.le_max
  have hmax : u64Max = 2 ^ 64 - 1 := rfl
  exact UInt64.toNat_ofNat_of_lt' (by rw [UInt64.size]; omega)

@[simp] theorem nonzero_toUInt64 (error : String) (value : NonZeroU64) : nonzero error value.toUInt64 = .ok value := by
  have hpos := value.pos
  simp [nonzero, NonZeroU64.new, toNat_toUInt64, hpos]

theorem toUInt64_of_nonzero {error : String} {value : UInt64} {v : NonZeroU64} (h : nonzero error value = .ok v) :
    v.toUInt64 = value := by
  unfold nonzero NonZeroU64.new at h
  split at h
  · next hnew =>
    split at hnew
    · cases hnew
      cases h
      exact UInt64.ofNat_toNat
    · cases hnew
  · cases h

@[simp] theorem finiteProbability_toBinary64 (field : String) (p : Probability) :
    finiteProbability field p.toBinary64 = .ok p := by
  have hin : p.toBinary64.any (fun q => decide (0 ≤ q ∧ q ≤ 1)) = true := by
    simp [Probability.toBinary64, p.nonneg, p.le_one]
  rw [finiteProbability, if_pos hin, Probability.new_toBinary64]
  rfl

theorem toBinary64_of_finiteProbability {field : String} {value : Binary64} {p : Probability}
    (h : finiteProbability field value = .ok p) : p.toBinary64 = value := by
  unfold finiteProbability at h
  split at h
  · exact Probability.toBinary64_of_new (except_mapError_ok h)
  · cases h

end Wire

/-! ## The conversions are inverse -/

open Wire

theorem FaultKindV1.fromCore_intoCore {w : FaultKindV1} {kind : FaultKind} (h : w.intoCore = .ok kind) :
    fromCore kind = w := by
  cases w with
  | latency delayNs jitterNs maxBufferBytes =>
    simp only [intoCore] at h
    split at h
    · cases h
    · obtain ⟨bytes, hbytes, h⟩ := except_bind_ok h
      cases h
      simp [fromCore, toUInt64_of_nonzero hbytes]
  | bandwidth bytesPerSecond burstBytes =>
    obtain ⟨rate, hrate, h⟩ := except_bind_ok h
    obtain ⟨burst, hburst, h⟩ := except_bind_ok h
    cases h
    simp [fromCore, toUInt64_of_nonzero hrate, toUInt64_of_nonzero hburst]
  | blackhole closeAfterNs =>
    cases h
    cases closeAfterNs <;> simp [fromCore]
  | limitData bytes =>
    obtain ⟨limit, hlimit, h⟩ := except_bind_ok h
    cases h
    simp [fromCore, toUInt64_of_nonzero hlimit]
  | slowClose delayNs =>
    cases h
    simp [fromCore]
  | slice averageSize variation delayNs =>
    obtain ⟨average, haverage, h⟩ := except_bind_ok h
    cases h
    simp [fromCore, toUInt64_of_nonzero haverage]
  | disconnect afterNs hardReset =>
    cases h
    simp [fromCore]
  | streamLoss lossRate correlation =>
    obtain ⟨rate, hrate, h⟩ := except_bind_ok h
    obtain ⟨again, hagain, h⟩ := except_bind_ok h
    cases h
    simp [fromCore, toBinary64_of_finiteProbability hrate, toBinary64_of_finiteProbability hagain]

theorem DatagramFaultKindV1.fromCore_intoCore {w : DatagramFaultKindV1} {kind : DatagramFaultKind}
    (h : w.intoCore = .ok kind) : fromCore kind = w := by
  cases w with
  | delay delayNs jitterNs =>
    cases h
    simp [fromCore]
  | loss => cases h; rfl
  | duplicate additionalCopies =>
    simp only [intoCore] at h
    split at h
    · cases h; rfl
    · cases h
  | reorder holdNs =>
    cases h
    simp [fromCore]
  | payloadCorrupt bytes =>
    obtain ⟨count, hcount, h⟩ := except_bind_ok h
    cases h
    simp [fromCore, toUInt64_of_nonzero hcount]
  | bandwidth bytesPerSecond burstBytes =>
    obtain ⟨rate, hrate, h⟩ := except_bind_ok h
    obtain ⟨burst, hburst, h⟩ := except_bind_ok h
    cases h
    simp [fromCore, toUInt64_of_nonzero hrate, toUInt64_of_nonzero hburst]

/-- The one kind the wire refuses and a native plan admits: a latency whose
buffer exceeds the wire's bound. -/
def FaultKind.Oversized : FaultKind → Prop
  | .latency c => maxLatencyBufferBytes < c.maxBufferBytes.get
  | .bandwidth _ | .blackhole _ | .limitData _ | .slowClose _ | .slice _ | .disconnect _ | .streamLoss _ => False

instance FaultKind.decidableOversized : DecidablePred FaultKind.Oversized
  | .latency c => inferInstanceAs (Decidable (maxLatencyBufferBytes < c.maxBufferBytes.get))
  | .bandwidth _ | .blackhole _ | .limitData _ | .slowClose _ | .slice _ | .disconnect _ | .streamLoss _ => .isFalse id

/-- A validated duration fits the wire's nanoseconds, being at most a day. -/
theorem FaultSpec.validate_durations {fault : FaultSpec} (h : fault.validate = .ok ()) {d : Nat}
    (hd : d ∈ fault.kind.durations) : d ≤ u64Max := by
  have hday : maxStreamFaultDuration ≤ u64Max := by decide
  exact ((FaultSpec.validate_iff.1 h).durations d hd).trans hday

theorem FaultSpec.validate_variation {fault : FaultSpec} (h : fault.validate = .ok ()) {c : SliceConfig}
    (hc : fault.kind = .slice c) : c.variation ≤ u64Max :=
  ((FaultSpec.validate_iff.1 h).variation c hc).le.trans c.averageSize.le_max

theorem FaultKindV1.intoCore_fromCore_latency (c : LatencyConfig) (hbuffer : c.maxBufferBytes.get ≤ maxLatencyBufferBytes)
    (hdelay : c.delay ≤ u64Max) (hjitter : c.jitter ≤ u64Max) :
    (fromCore (.latency c)).intoCore = .ok (.latency c) := by
  have hle : ¬ maxLatencyBufferBytes < c.maxBufferBytes.toUInt64.toNat := by
    rw [toNat_toUInt64]
    omega
  rw [fromCore, intoCore, if_neg hle, nonzero_toUInt64, duration_ns hdelay, duration_ns hjitter]
  rfl

theorem FaultKindV1.intoCore_oversized {c : LatencyConfig} (hbuffer : maxLatencyBufferBytes < c.maxBufferBytes.get) :
    (fromCore (.latency c)).intoCore =
      .error ("max_buffer_bytes must be at most " ++ toString maxLatencyBufferBytes) := by
  have hlt : maxLatencyBufferBytes < c.maxBufferBytes.toUInt64.toNat := by
    rw [toNat_toUInt64]
    exact hbuffer
  rw [fromCore, intoCore, if_pos hlt]
  rfl

/-- A validated stream fault survives the wire exactly when it is not oversized. -/
theorem FaultKindV1.intoCore_fromCore_iff {fault : FaultSpec} (h : fault.validate = .ok ()) :
    (fromCore fault.kind).intoCore = .ok fault.kind ↔ ¬ fault.kind.Oversized := by
  have hshort := fun d => fault.validate_durations h (d := d)
  have hvariation := fun c => fault.validate_variation h (c := c)
  generalize fault.kind = kind at hshort hvariation ⊢
  cases kind with
  | latency c =>
    by_cases hbuffer : maxLatencyBufferBytes < c.maxBufferBytes.get
    · simp [intoCore_oversized hbuffer, FaultKind.Oversized, hbuffer]
    · have hround := intoCore_fromCore_latency c (Nat.le_of_not_lt hbuffer)
        (hshort c.delay (by simp [FaultKind.durations])) (hshort c.jitter (by simp [FaultKind.durations]))
      simp [hround, FaultKind.Oversized, hbuffer]
  | bandwidth c =>
    simp only [FaultKind.Oversized, not_false_eq_true, iff_true]
    rw [fromCore, intoCore, nonzero_toUInt64, nonzero_toUInt64]
    rfl
  | blackhole c =>
    simp only [FaultKind.Oversized, not_false_eq_true, iff_true]
    rcases c with ⟨_ | d⟩
    · rfl
    · have hd := duration_ns (hshort d (by simp [FaultKind.durations]))
      simp only [fromCore, intoCore, Option.map_some, hd]
      rfl
  | limitData c =>
    simp only [FaultKind.Oversized, not_false_eq_true, iff_true]
    rw [fromCore, intoCore, nonzero_toUInt64]
    rfl
  | slowClose c =>
    simp only [FaultKind.Oversized, not_false_eq_true, iff_true]
    rw [fromCore, intoCore, duration_ns (hshort c.delay (by simp [FaultKind.durations]))]
    rfl
  | slice c =>
    simp only [FaultKind.Oversized, not_false_eq_true, iff_true]
    have hfits := duration_ns (hvariation c rfl)
    rw [ns, min_eq_left (hvariation c rfl), duration] at hfits
    rw [fromCore, intoCore, nonzero_toUInt64, hfits, duration_ns (hshort c.delay (by simp [FaultKind.durations]))]
    rfl
  | disconnect c =>
    simp only [FaultKind.Oversized, not_false_eq_true, iff_true]
    rw [fromCore, intoCore, duration_ns (hshort c.after (by simp [FaultKind.durations]))]
    rfl
  | streamLoss c =>
    simp only [FaultKind.Oversized, not_false_eq_true, iff_true]
    rw [fromCore, intoCore, finiteProbability_toBinary64, finiteProbability_toBinary64]
    rfl

/-- What a stage that passes `checkKind` promises is all the wire asks of it. -/
theorem DatagramFaultKindV1.intoCore_fromCore {maximum maximum' : Nat} {kind : DatagramFaultKind}
    (h : DatagramPlan.checkKind maximum kind = .ok maximum') : (fromCore kind).intoCore = .ok kind := by
  have hday : DatagramPlan.maxDatagramFaultDuration ≤ u64Max := by decide
  cases kind with
  | delay delay' jitter =>
    simp only [DatagramPlan.checkKind] at h
    split at h
    · cases h
    · have hdelay : delay' ≤ u64Max := by omega
      have hjitter : jitter ≤ u64Max := by omega
      rw [fromCore, intoCore, duration_ns hdelay, duration_ns hjitter]
      rfl
  | loss => rfl
  | duplicate copies =>
    simp only [DatagramPlan.checkKind] at h
    split at h
    · cases h
    · next hcopies =>
      have hin : 1 ≤ copies ∧ copies ≤ 16 := by
        simp only [not_or, UInt8.not_lt] at hcopies
        refine ⟨?_, hcopies.2⟩
        rw [UInt8.le_iff_toNat_le]
        have : copies.toNat ≠ 0 := fun h0 => hcopies.1 (UInt8.toNat_inj.1 h0)
        have hone : (1 : UInt8).toNat = 1 := rfl
        omega
      rw [fromCore, intoCore, if_pos hin]
      rfl
  | reorder hold =>
    simp only [DatagramPlan.checkKind] at h
    split at h
    · cases h
    · have hhold : hold ≤ u64Max := by omega
      rw [fromCore, intoCore, duration_ns hhold]
      rfl
  | payloadCorrupt bytes =>
    rw [fromCore, intoCore, nonzero_toUInt64]
    rfl
  | bandwidth rate burst =>
    rw [fromCore, intoCore, nonzero_toUInt64, nonzero_toUInt64]
    rfl

end Eggchaos
