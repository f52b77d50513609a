import Eggchaos.Schedule
import Eggchaos.Lib.Text
/-!
# The fingerprint encoding of a schedule

`encode_compiled_for_fingerprint` of `fingerprint.rs`: the text whose SHA-256
is the portable identity of a schedule. Proxy names and fault ids go into it as
they are and probabilities with 17 decimals, so the text has more than one
reading when a name holds what the format puts after it, or when two
probabilities are closer than the decimals show. Otherwise it determines the
compiled schedule (`encode_compiled_injective`).
-/

namespace Eggchaos
open Lib

/-! ## The encoding -/

def writeIsolation : IsolationPolicyV2 → String
  | .strict => "strict"
  | .live => "live"

def writeCleanup : CleanupPolicyV2 → String
  | .restoreInitial => "restore-initial"
  | .leave => "leave"

def writePhase : CompiledPhaseIdentity → String
  | .top index => "top/" ++ toString index
  | .repeated iteration index => "repeat/" ++ toString iteration ++ "/" ++ toString index

/-- A probability in units of `10 ^ (-17)`, rounded as `format!("{:.17}", p)`
rounds. -/
def Probability.scaled (p : Probability) : Nat := (roundHalfEven (p.get * 10 ^ 17)).toNat

/-- `format!("{:.17}", p)`. -/
def Probability.fixed17 (p : Probability) : String :=
  toString (p.scaled / 10 ^ 17) ++ "." ++ String.ofList ((toString (p.scaled % 10 ^ 17)).toList.leftpad 17 '0')

def writeStreamFaultKind : FaultKind → String
  | .latency c => "latency;delay_ns=" ++ toString c.delay ++ ";jitter_ns=" ++ toString c.jitter ++
      ";max_buffer_bytes=" ++ toString c.maxBufferBytes.get
  | .bandwidth c => "bandwidth;bytes_per_second=" ++ toString c.bytesPerSecond.get ++ ";burst_bytes=" ++
      toString c.burstBytes.get
  | .blackhole c => "blackhole;close_after_ns=" ++ match c.closeAfter with
      | some d => toString d
      | none => "<none>"
  | .limitData c => "limit-data;bytes=" ++ toString c.bytes.get
  | .slowClose c => "slow-close;delay_ns=" ++ toString c.delay
  | .slice c => "slice;average_size=" ++ toString c.averageSize.get ++ ";variation=" ++ toString c.variation ++
      ";delay_ns=" ++ toString c.delay
  | .disconnect c => "disconnect;after_ns=" ++ toString c.after ++ ";hard_reset=" ++
      if c.hardReset then "true" else "false"
  | .streamLoss c => "stream-loss;loss_rate=" ++ c.lossRate.fixed17 ++ ";correlation=" ++ c.correlation.fixed17

def writeDatagramFaultKind : DatagramFaultKind → String
  | .delay delay jitter => "delay;delay_ns=" ++ toString delay ++ ";jitter_ns=" ++ toString jitter
  | .loss => "loss"
  | .duplicate additionalCopies => "duplicate;additional_copies=" ++ toString additionalCopies.toNat
  | .reorder hold => "reorder;hold_ns=" ++ toString hold
  | .payloadCorrupt bytes => "payload-corrupt;bytes=" ++ toString bytes.get
  | .bandwidth bytesPerSecond burstBytes => "bandwidth;bytes_per_second=" ++ toString bytesPerSecond.get ++
      ";burst_bytes=" ++ toString burstBytes.get

/-- One fault of a plan: id, probability and what its kind writes. -/
def writeFault (id : FaultId) (probability : Probability) (kind : String) : String :=
  id.value ++ "~" ++ probability.fixed17 ++ "~" ++ kind ++ "|"

def writeAction : ScenarioAction → String
  | .setPlan proxy direction faults => "set-plan;proxy=" ++ proxy ++ ";direction=" ++ direction.asStr ++ ";faults=" ++
      String.join (faults.map fun fault => writeFault fault.id fault.probability (writeStreamFaultKind fault.kind))
  | .removeFault proxy direction id => "remove-fault;proxy=" ++ proxy ++ ";direction=" ++ direction.asStr ++ ";id=" ++ id
  | .setDatagramPlan proxy direction faults => "set-datagram-plan;proxy=" ++ proxy ++ ";direction=" ++
      direction.asStr ++ ";faults=" ++
      String.join (faults.map fun fault => writeFault fault.id fault.probability (writeDatagramFaultKind fault.kind))
  | .removeDatagramFault proxy direction id => "remove-datagram-fault;proxy=" ++ proxy ++ ";direction=" ++
      direction.asStr ++ ";id=" ++ id

def writeEvent (event : CompiledEventV2) : String :=
  "\nevent[" ++ toString event.compiledIndex ++ "] phase=" ++ writePhase event.phase ++ " offset_ns=" ++
    toString event.offsetNs ++ " action=" ++ writeAction event.action

/-- The text of a compiled schedule. -/
def compiledText (compiled : CompiledScenarioV2) : String :=
  "isolation=" ++ writeIsolation compiled.isolation ++ "\ncleanup=" ++ writeCleanup compiled.cleanup ++ "\nseed=" ++
    toString compiled.seed.toNat ++ "\nexecution_key=" ++ toString compiled.executionKey.toNat ++
    "\ntotal_duration_ns=" ++ toString compiled.totalDurationNs ++ "\nevent_count=" ++
    toString compiled.events.length ++ String.join (compiled.events.map writeEvent)

/-- `encode_compiled_for_fingerprint`. -/
def encodeCompiledForFingerprint (compiled : CompiledScenarioV2) : List UInt8 := utf8Bytes (compiledText compiled)

/-! ## Reading it back -/

/-- The probabilities of a fault kind. -/
def FaultKind.probabilities : FaultKind → List Probability
  | .streamLoss c => [c.lossRate, c.correlation]
  | .latency _ | .bandwidth _ | .blackhole _ | .limitData _ | .slowClose _ | .slice _ | .disconnect _ => []

/-- The probabilities that an action writes. -/
def ScenarioAction.probabilities : ScenarioAction → List Probability
  | .setPlan _ _ faults => faults.flatMap fun fault => fault.probability :: fault.kind.probabilities
  | .setDatagramPlan _ _ faults => faults.map (·.probability)
  | .removeFault _ _ _ | .removeDatagramFault _ _ _ => []

def CompiledScenarioV2.probabilities (compiled : CompiledScenarioV2) : List Probability :=
  compiled.events.flatMap (·.action.probabilities)

/-- What follows a proxy name. -/
def proxyEnd : List (List Char) := [";direction=".toList]

/-- What follows the id of a fault. -/
def faultIdEnd : List (List Char) := ["~".toList]

/-- What follows an action. -/
def actionEnd : List (List Char) := ["\nevent[".toList]

/-- The id of a fault is written so that it ends where it ends, and does not look
like the end of the plan. -/
def FaultId.Plain (id : FaultId) : Prop := Without faultIdEnd id.value.toList ∧ ¬ "\nevent[".toList <+: id.value.toList

/-- No name of the action holds what the format puts after it. -/
def ScenarioAction.Plain : ScenarioAction → Prop
  | .setPlan proxy _ faults => Without proxyEnd proxy.toList ∧ ∀ fault ∈ faults, fault.id.Plain
  | .setDatagramPlan proxy _ faults => Without proxyEnd proxy.toList ∧ ∀ fault ∈ faults, fault.id.Plain
  | .removeFault proxy _ id | .removeDatagramFault proxy _ id =>
    Without proxyEnd proxy.toList ∧ Without actionEnd id.toList

/-- Different probabilities are written differently. -/
def Distinguished (ps qs : List Probability) : Prop := ∀ p ∈ ps, ∀ q ∈ qs, p.fixed17 = q.fixed17 → p = q

theorem Distinguished.mono {ps qs ps' qs' : List Probability} (h : Distinguished ps qs) (hp : ps' ⊆ ps) (hq : qs' ⊆ qs) :
    Distinguished ps' qs' :=
  fun p hp' q hq' => h p (hp hp') q (hq hq')

/-! ### Probabilities -/

/-- The characters of a probability. -/
def isDecimal (c : Char) : Bool := c.isDigit || c = '.'

theorem fixed17_decimal (p : Probability) : ∀ c ∈ p.fixed17.toList, isDecimal c = true := by
  have hdigits : ∀ n, ∀ c ∈ Nat.toDigits 10 n, isDecimal c = true := by
    intro n c hc
    have := Nat.isDigit_of_mem_toDigits (by decide) (by decide) hc
    simp [isDecimal, this]
  intro c hc
  simp only [Probability.fixed17, String.toList_append, String.toList_ofList, List.leftpad, List.mem_append,
    List.mem_replicate] at hc
  rcases hc with (hc | hc) | ⟨-, rfl⟩ | hc
  · exact hdigits _ c (by simpa using hc)
  · have : c = '.' := by simpa using hc
    simp [isDecimal, this]
  · rfl
  · exact hdigits _ c (by simpa using hc)

theorem fixed17_append_inj {p q : Probability} {x y : List Char} (hpq : p.fixed17 = q.fixed17 → p = q)
    (hx : Outside isDecimal x) (hy : Outside isDecimal y) (h : p.fixed17.toList ++ x = q.fixed17.toList ++ y) :
    p = q ∧ x = y := by
  obtain ⟨htext, hxy⟩ := append_inj_of_class (fixed17_decimal p) (fixed17_decimal q) hx hy h
  exact ⟨hpq (String.toList_inj.1 htext), hxy⟩

/-! ### Fault kinds -/

theorem NonZeroU64.get_injective {m n : NonZeroU64} (h : m.get = n.get) : m = n := by
  obtain ⟨m, _, _⟩ := m
  obtain ⟨n, _, _⟩ := n
  cases h
  rfl

/-- The first letters of what a kind writes. -/
theorem streamFaultKind_take (k : FaultKind) (x : List Char) :
    ((writeStreamFaultKind k).toList ++ x).take 4 = k.typeName.toList.take 4 := by
  cases k with
  | latency c => unfold writeStreamFaultKind; simp [FaultKind.typeName]
  | bandwidth c => unfold writeStreamFaultKind; simp [FaultKind.typeName]
  | blackhole c => unfold writeStreamFaultKind; simp [FaultKind.typeName]
  | limitData c => unfold writeStreamFaultKind; simp [FaultKind.typeName]
  | slowClose c => unfold writeStreamFaultKind; simp [FaultKind.typeName]
  | slice c => unfold writeStreamFaultKind; simp [FaultKind.typeName]
  | disconnect c => unfold writeStreamFaultKind; simp [FaultKind.typeName]
  | streamLoss c => unfold writeStreamFaultKind; simp [FaultKind.typeName]

theorem streamFaultKind_tag {k k' : FaultKind} {x y : List Char}
    (h : (writeStreamFaultKind k).toList ++ x = (writeStreamFaultKind k').toList ++ y) :
    k.typeName.toList.take 4 = k'.typeName.toList.take 4 := by
  rw [← streamFaultKind_take k x, h, streamFaultKind_take]

/-- A number is not `<none>`. -/
theorem decimal_ne_none {n : Nat} {x y : List Char} : Nat.toDigits 10 n ++ x ≠ "<none>".toList ++ y := by
  intro h
  obtain ⟨c, rest, hdigits⟩ := List.exists_cons_of_ne_nil (Nat.toDigits_ne_nil (n := n) (b := 10))
  have hc : c.isDigit = true := Nat.isDigit_of_mem_toDigits (by decide) (by decide) (hdigits ▸ List.mem_cons_self)
  rw [hdigits] at h
  have hhead : c = '<' := by simpa using congrArg List.head? h
  rw [hhead] at hc
  cases hc

theorem streamFaultKind_inj {k k' : FaultKind} {x y : List Char} (hp : Distinguished k.probabilities k'.probabilities)
    (h : (writeStreamFaultKind k).toList ++ '|' :: x = (writeStreamFaultKind k').toList ++ '|' :: y) :
    k = k' ∧ x = y := by
  have htag := streamFaultKind_tag h
  cases k with
  | latency c =>
    cases k' <;> simp [FaultKind.typeName] at htag
    next c' =>
    obtain ⟨delay, jitter, size⟩ := c
    obtain ⟨delay', jitter', size'⟩ := c'
    unfold writeStreamFaultKind at h
    simp only [String.toList_append, Nat.toString_eq_repr, Nat.toList_repr, List.append_assoc, List.append_cancel_left_eq] at h
    obtain ⟨rfl, h⟩ := decimal_append_inj (outside_append (by decide) _) (outside_append (by decide) _) h
    simp only [List.append_cancel_left_eq] at h
    obtain ⟨rfl, h⟩ := decimal_append_inj (outside_append (by decide) _) (outside_append (by decide) _) h
    simp only [List.append_cancel_left_eq] at h
    obtain ⟨hsize, h⟩ := decimal_append_inj (outside_cons rfl _) (outside_cons rfl _) h
    rw [NonZeroU64.get_injective hsize]
    exact ⟨rfl, by simpa using h⟩
  | bandwidth c =>
    cases k' <;> simp [FaultKind.typeName] at htag
    next c' =>
    obtain ⟨rate, burst⟩ := c
    obtain ⟨rate', burst'⟩ := c'
    unfold writeStreamFaultKind at h
    simp only [String.toList_append, Nat.toString_eq_repr, Nat.toList_repr, List.append_assoc, List.append_cancel_left_eq] at h
    obtain ⟨hrate, h⟩ := decimal_append_inj (outside_append (by decide) _) (outside_append (by decide) _) h
    simp only [List.append_cancel_left_eq] at h
    obtain ⟨hburst, h⟩ := decimal_append_inj (outside_cons rfl _) (outside_cons rfl _) h
    rw [NonZeroU64.get_injective hrate, NonZeroU64.get_injective hburst]
    exact ⟨rfl, by simpa using h⟩
  | blackhole c =>
    cases k' <;> simp [FaultKind.typeName] at htag
    next c' =>
    obtain ⟨close⟩ := c
    obtain ⟨close'⟩ := c'
    unfold writeStreamFaultKind at h
    cases close with
    | none =>
      cases close' with
      | none => exact ⟨rfl, by simpa using h⟩
      | some d' =>
        simp only [String.toList_append, Nat.toString_eq_repr, Nat.toList_repr, List.append_assoc, List.append_cancel_left_eq] at h
        exact absurd h.symm decimal_ne_none
    | some d =>
      cases close' with
      | none =>
        simp only [String.toList_append, Nat.toString_eq_repr, Nat.toList_repr, List.append_assoc, List.append_cancel_left_eq] at h
        exact absurd h decimal_ne_none
      | some d' =>
        simp only [String.toList_append, Nat.toString_eq_repr, Nat.toList_repr, List.append_assoc, List.append_cancel_left_eq] at h
        obtain ⟨rfl, h⟩ := decimal_append_inj (outside_cons rfl _) (outside_cons rfl _) h
        exact ⟨rfl, by simpa using h⟩
  | limitData c =>
    cases k' <;> simp [FaultKind.typeName] at htag
    next c' =>
    obtain ⟨bytes⟩ := c
    obtain ⟨bytes'⟩ := c'
    unfold writeStreamFaultKind at h
    simp only [String.toList_append, Nat.toString_eq_repr, Nat.toList_repr, List.append_assoc, List.append_cancel_left_eq] at h
    obtain ⟨hbytes, h⟩ := decimal_append_inj (outside_cons rfl _) (outside_cons rfl _) h
    rw [NonZeroU64.get_injective hbytes]
    exact ⟨rfl, by simpa using h⟩
  | slowClose c =>
    cases k' <;> simp [FaultKind.typeName] at htag
    next c' =>
    obtain ⟨delay⟩ := c
    obtain ⟨delay'⟩ := c'
    unfold writeStreamFaultKind at h
    simp only [String.toList_append, Nat.toString_eq_repr, Nat.toList_repr, List.append_assoc, List.append_cancel_left_eq] at h
    obtain ⟨rfl, h⟩ := decimal_append_inj (outside_cons rfl _) (outside_cons rfl _) h
    exact ⟨rfl, by simpa using h⟩
  | slice c =>
    cases k' <;> simp [FaultKind.typeName] at htag
    next c' =>
    obtain ⟨size, variation, delay⟩ := c
    obtain ⟨size', variation', delay'⟩ := c'
    unfold writeStreamFaultKind at h
    simp only [String.toList_append, Nat.toString_eq_repr, Nat.toList_repr, List.append_assoc, List.append_cancel_left_eq] at h
    obtain ⟨hsize, h⟩ := decimal_append_inj (outside_append (by decide) _) (outside_append (by decide) _) h
    simp only [List.append_cancel_left_eq] at h
    obtain ⟨rfl, h⟩ := decimal_append_inj (outside_append (by decide) _) (outside_append (by decide) _) h
    simp only [List.append_cancel_left_eq] at h
    obtain ⟨rfl, h⟩ := decimal_append_inj (outside_cons rfl _) (outside_cons rfl _) h
    rw [NonZeroU64.get_injective hsize]
    exact ⟨rfl, by simpa using h⟩
  | disconnect c =>
    cases k' <;> simp [FaultKind.typeName] at htag
    next c' =>
    obtain ⟨after, reset⟩ := c
    obtain ⟨after', reset'⟩ := c'
    unfold writeStreamFaultKind at h
    simp only [String.toList_append, Nat.toString_eq_repr, Nat.toList_repr, List.append_assoc, List.append_cancel_left_eq] at h
    obtain ⟨rfl, h⟩ := decimal_append_inj (outside_append (by decide) _) (outside_append (by decide) _) h
    simp only [List.append_cancel_left_eq] at h
    cases reset <;> cases reset' <;> simp at h
    · exact ⟨rfl, h⟩
    · exact ⟨rfl, h⟩
  | streamLoss c =>
    cases k' <;> simp [FaultKind.typeName] at htag
    next c' =>
    obtain ⟨loss, correlation⟩ := c
    obtain ⟨loss', correlation'⟩ := c'
    unfold writeStreamFaultKind at h
    simp only [String.toList_append, List.append_assoc, List.append_cancel_left_eq] at h
    obtain ⟨rfl, h⟩ := fixed17_append_inj (hp loss (by simp [FaultKind.probabilities]) loss'
      (by simp [FaultKind.probabilities])) (outside_append (by decide) _) (outside_append (by decide) _) h
    simp only [List.append_cancel_left_eq] at h
    obtain ⟨rfl, h⟩ := fixed17_append_inj (hp correlation (by simp [FaultKind.probabilities]) correlation'
      (by simp [FaultKind.probabilities])) (outside_cons rfl _) (outside_cons rfl _) h
    exact ⟨rfl, by simpa using h⟩

theorem datagramFaultKind_take (k : DatagramFaultKind) (x : List Char) :
    ((writeDatagramFaultKind k).toList ++ x).take 4 = (match k with
      | .delay _ _ => "dela"
      | .loss => "loss"
      | .duplicate _ => "dupl"
      | .reorder _ => "reor"
      | .payloadCorrupt _ => "payl"
      | .bandwidth _ _ => "band").toList := by
  cases k with
  | delay delay jitter => unfold writeDatagramFaultKind; simp
  | loss => unfold writeDatagramFaultKind; simp
  | duplicate copies => unfold writeDatagramFaultKind; simp
  | reorder hold => unfold writeDatagramFaultKind; simp
  | payloadCorrupt bytes => unfold writeDatagramFaultKind; simp
  | bandwidth rate burst => unfold writeDatagramFaultKind; simp

theorem datagramFaultKind_inj {k k' : DatagramFaultKind} {x y : List Char}
    (h : (writeDatagramFaultKind k).toList ++ '|' :: x = (writeDatagramFaultKind k').toList ++ '|' :: y) :
    k = k' ∧ x = y := by
  have htag := congrArg (List.take 4) h
  rw [datagramFaultKind_take, datagramFaultKind_take] at htag
  cases k with
  | delay delay jitter =>
    cases k' <;> simp at htag
    next delay' jitter' =>
    unfold writeDatagramFaultKind at h
    simp only [String.toList_append, Nat.toString_eq_repr, Nat.toList_repr, List.append_assoc, List.append_cancel_left_eq] at h
    obtain ⟨rfl, h⟩ := decimal_append_inj (outside_append (by decide) _) (outside_append (by decide) _) h
    simp only [List.append_cancel_left_eq] at h
    obtain ⟨rfl, h⟩ := decimal_append_inj (outside_cons rfl _) (outside_cons rfl _) h
    exact ⟨rfl, by simpa using h⟩
  | loss =>
    cases k' <;> simp at htag
    unfold writeDatagramFaultKind at h
    exact ⟨rfl, by simpa using h⟩
  | duplicate copies =>
    cases k' <;> simp at htag
    next copies' =>
    unfold writeDatagramFaultKind at h
    simp only [String.toList_append, Nat.toString_eq_repr, Nat.toList_repr, List.append_assoc, List.append_cancel_left_eq] at h
    obtain ⟨hcopies, h⟩ := decimal_append_inj (outside_cons rfl _) (outside_cons rfl _) h
    rw [UInt8.toNat_inj.1 hcopies]
    exact ⟨rfl, by simpa using h⟩
  | reorder hold =>
    cases k' <;> simp at htag
    next hold' =>
    unfold writeDatagramFaultKind at h
    simp only [String.toList_append, Nat.toString_eq_repr, Nat.toList_repr, List.append_assoc, List.append_cancel_left_eq] at h
    obtain ⟨rfl, h⟩ := decimal_append_inj (outside_cons rfl _) (outside_cons rfl _) h
    exact ⟨rfl, by simpa using h⟩
  | payloadCorrupt bytes =>
    cases k' <;> simp at htag
    next bytes' =>
    unfold writeDatagramFaultKind at h
    simp only [String.toList_append, Nat.toString_eq_repr, Nat.toList_repr, List.append_assoc, List.append_cancel_left_eq] at h
    obtain ⟨hbytes, h⟩ := decimal_append_inj (outside_cons rfl _) (outside_cons rfl _) h
    rw [NonZeroU64.get_injective hbytes]
    exact ⟨rfl, by simpa using h⟩
  | bandwidth rate burst =>
    cases k' <;> simp at htag
    next rate' burst' =>
    unfold writeDatagramFaultKind at h
    simp only [String.toList_append, Nat.toString_eq_repr, Nat.toList_repr, List.append_assoc, List.append_cancel_left_eq] at h
    obtain ⟨hrate, h⟩ := decimal_append_inj (outside_append (by decide) _) (outside_append (by decide) _) h
    simp only [List.append_cancel_left_eq] at h
    obtain ⟨hburst, h⟩ := decimal_append_inj (outside_cons rfl _) (outside_cons rfl _) h
    rw [NonZeroU64.get_injective hrate, NonZeroU64.get_injective hburst]
    exact ⟨rfl, by simpa using h⟩

/-! ### Plans -/

/-- Where an event ends: at the end, or at the next event. -/
def AtEvent (x : List Char) : Prop := x = [] ∨ Begins actionEnd x

theorem fault_inj {id id' : FaultId} {p p' : Probability} {kind kind' : String} {x y : List Char} (hid : id.Plain)
    (hid' : id'.Plain) (hp : p.fixed17 = p'.fixed17 → p = p')
    (h : (writeFault id p kind).toList ++ x = (writeFault id' p' kind').toList ++ y) :
    id = id' ∧ p = p' ∧ kind.toList ++ '|' :: x = kind'.toList ++ '|' :: y := by
  unfold writeFault at h
  simp only [String.toList_append, List.append_assoc] at h
  have hbegins : ∀ z, Begins faultIdEnd ("~".toList ++ z) := fun z => ⟨_, by simp [faultIdEnd], List.prefix_append _ z⟩
  obtain ⟨hvalue, h⟩ := append_inj_of_without (show BorderFree faultIdEnd by decide) hid.1 hid'.1 (hbegins _) (hbegins _) h
  simp only [List.append_cancel_left_eq] at h
  obtain ⟨hprob, h⟩ := fixed17_append_inj hp (outside_append (by decide) _) (outside_append (by decide) _) h
  simp only [List.append_cancel_left_eq] at h
  refine ⟨?_, hprob, by simpa using h⟩
  obtain ⟨value, _, _⟩ := id
  obtain ⟨value', _, _⟩ := id'
  have := String.toList_inj.1 hvalue
  simp only at this
  subst this
  rfl

/-- A fault does not look like the end of its plan. -/
theorem fault_not_atEvent {id : FaultId} (hid : id.Plain) (p : Probability) (kind : String) (z : List Char) :
    ¬ AtEvent ((writeFault id p kind).toList ++ z) := by
  have htext : (writeFault id p kind).toList ++ z =
      id.value.toList ++ '~' :: (p.fixed17.toList ++ ("~".toList ++ (kind.toList ++ ("|".toList ++ z)))) := by
    unfold writeFault
    simp
  rw [htext]
  rintro (hnil | ⟨sep, hsep, w, hw⟩)
  · simp at hnil
  · have hsep : sep = "\nevent[".toList := by simpa [actionEnd] using hsep
    subst hsep
    rcases List.append_eq_append_iff.1 hw with ⟨r, hr, -⟩ | ⟨r, hr, hrest⟩
    · exact hid.2 ⟨r, hr.symm⟩
    · cases r with
      | nil => exact hid.2 ⟨[], by simpa using hr⟩
      | cons c r =>
        have hc : c = '~' := by
          simp only [List.cons_append, List.cons.injEq] at hrest
          exact hrest.1.symm
        have hmem : '~' ∈ "\nevent[".toList := by
          rw [hr, hc]
          simp
        exact absurd hmem (by decide)

/-- The faults of a plan, of either transport. -/
theorem faults_inj {F : Type} {id : F → FaultId} {p : F → Probability} {kind : F → String} {ok : F → F → Prop}
    (hprob : ∀ f g, ok f g → (p f).fixed17 = (p g).fixed17 → p f = p g)
    (hkind : ∀ f g x y, ok f g → id f = id g → p f = p g → (kind f).toList ++ '|' :: x = (kind g).toList ++ '|' :: y →
      f = g ∧ x = y)
    {fs gs : List F} {x y : List Char} (hok : ∀ f ∈ fs, ∀ g ∈ gs, ok f g) (hfs : ∀ f ∈ fs, (id f).Plain)
    (hgs : ∀ g ∈ gs, (id g).Plain) (hx : AtEvent x) (hy : AtEvent y)
    (h : (String.join (fs.map fun f => writeFault (id f) (p f) (kind f))).toList ++ x =
      (String.join (gs.map fun f => writeFault (id f) (p f) (kind f))).toList ++ y) : fs = gs ∧ x = y := by
  simp only [String.toList_join, List.flatMap_map] at h
  refine @flatMap_inj_of_stop _ _ _ (fun f g => ok f g ∧ (id f).Plain ∧ (id g).Plain) AtEvent ?_ _ _ _ _
    (fun f hf g hg => ⟨hok f hf g hg, hfs f hf, hgs g hg⟩) (fun f hf z => fault_not_atEvent (hfs f hf) _ _ z)
    (fun g hg z => fault_not_atEvent (hgs g hg) _ _ z) hx hy h
  rintro f g z w ⟨hfg, hf, hg⟩ heq - -
  obtain ⟨hid, hp, hk⟩ := fault_inj hf hg (hprob f g hfg) heq
  exact hkind f g z w hfg hid hp hk

/-! ### Actions -/

theorem action_take (action : ScenarioAction) (x : List Char) :
    ((writeAction action).toList ++ x).take 8 = (match action with
      | .setPlan _ _ _ => "set-plan"
      | .removeFault _ _ _ => "remove-f"
      | .setDatagramPlan _ _ _ => "set-data"
      | .removeDatagramFault _ _ _ => "remove-d").toList := by
  cases action with
  | setPlan proxy direction faults => unfold writeAction; simp
  | removeFault proxy direction id => unfold writeAction; simp
  | setDatagramPlan proxy direction faults => unfold writeAction; simp
  | removeDatagramFault proxy direction id => unfold writeAction; simp

/-- A proxy name and a direction, up to the field after them. -/
theorem proxy_inj {proxy proxy' : String} {direction direction' : Direction} {field : String} {x y : List Char}
    (hproxy : Without proxyEnd proxy.toList) (hproxy' : Without proxyEnd proxy'.toList)
    (h : proxy.toList ++ (";direction=".toList ++ (direction.asStr.toList ++ (field.toList ++ x))) =
      proxy'.toList ++ (";direction=".toList ++ (direction'.asStr.toList ++ (field.toList ++ y)))) :
    proxy = proxy' ∧ direction = direction' ∧ x = y := by
  have hbegins : ∀ z, Begins proxyEnd (";direction=".toList ++ z) :=
    fun z => ⟨_, by simp [proxyEnd], List.prefix_append _ z⟩
  obtain ⟨hname, h⟩ := append_inj_of_without (show BorderFree proxyEnd by decide) hproxy hproxy' (hbegins _) (hbegins _) h
  simp only [List.append_cancel_left_eq] at h
  refine ⟨String.toList_inj.1 hname, ?_⟩
  cases direction <;> cases direction' <;> simp [Direction.asStr] at h ⊢
  · exact h
  · exact h

theorem action_inj {a b : ScenarioAction} {x y : List Char} (ha : a.Plain) (hb : b.Plain)
    (hp : Distinguished a.probabilities b.probabilities) (hx : AtEvent x) (hy : AtEvent y)
    (h : (writeAction a).toList ++ x = (writeAction b).toList ++ y) : a = b ∧ x = y := by
  have htag := congrArg (List.take 8) h
  rw [action_take, action_take] at htag
  cases a with
  | setPlan proxy direction faults =>
    cases b <;> simp at htag
    next proxy' direction' faults' =>
    unfold writeAction at h
    simp only [String.toList_append, List.append_assoc, List.append_cancel_left_eq] at h
    obtain ⟨rfl, rfl, hrest⟩ := proxy_inj ha.1 hb.1 h
    have hfaults : ∀ f ∈ faults, ∀ g ∈ faults',
        Distinguished (f.probability :: f.kind.probabilities) (g.probability :: g.kind.probabilities) := by
      intro f hf g hg
      refine hp.mono ?_ ?_
      · exact fun p hp => List.mem_flatMap_of_mem hf hp
      · exact fun p hp => List.mem_flatMap_of_mem hg hp
    have hread : faults = faults' ∧ x = y := by
      refine faults_inj (fun f g hfg => hfg _ (by simp) _ (by simp)) ?_ hfaults ha.2 hb.2 hx hy hrest
      intro f g z w hfg hid hprob hk
      obtain ⟨hkind, hzw⟩ := streamFaultKind_inj (hfg.mono (List.subset_cons_self _ _) (List.subset_cons_self _ _)) hk
      cases f
      cases g
      cases hid
      cases hprob
      cases hkind
      exact ⟨rfl, hzw⟩
    exact ⟨by rw [hread.1], hread.2⟩
  | setDatagramPlan proxy direction faults =>
    cases b <;> simp at htag
    next proxy' direction' faults' =>
    unfold writeAction at h
    simp only [String.toList_append, List.append_assoc, List.append_cancel_left_eq] at h
    obtain ⟨rfl, rfl, hrest⟩ := proxy_inj ha.1 hb.1 h
    have hfaults : ∀ f ∈ faults, ∀ g ∈ faults', f.probability.fixed17 = g.probability.fixed17 →
        f.probability = g.probability :=
      fun f hf g hg => hp _ (List.mem_map.2 ⟨f, hf, rfl⟩) _ (List.mem_map.2 ⟨g, hg, rfl⟩)
    have hread : faults = faults' ∧ x = y := by
      refine faults_inj (fun f g hfg => hfg) ?_ hfaults ha.2 hb.2 hx hy hrest
      intro f g z w _ hid hprob hk
      obtain ⟨hkind, hzw⟩ := datagramFaultKind_inj hk
      cases f
      cases g
      cases hid
      cases hprob
      cases hkind
      exact ⟨rfl, hzw⟩
    exact ⟨by rw [hread.1], hread.2⟩
  | removeFault proxy direction id =>
    cases b <;> simp at htag
    next proxy' direction' id' =>
    unfold writeAction at h
    simp only [String.toList_append, List.append_assoc, List.append_cancel_left_eq] at h
    obtain ⟨rfl, rfl, hrest⟩ := proxy_inj ha.1 hb.1 h
    obtain ⟨hid, hxy⟩ := append_inj_of_without_or_end (show BorderFree actionEnd by decide) ha.2 hb.2 hx hy hrest
    rw [String.toList_inj.1 hid]
    exact ⟨rfl, hxy⟩
  | removeDatagramFault proxy direction id =>
    cases b <;> simp at htag
    next proxy' direction' id' =>
    unfold writeAction at h
    simp only [String.toList_append, List.append_assoc, List.append_cancel_left_eq] at h
    obtain ⟨rfl, rfl, hrest⟩ := proxy_inj ha.1 hb.1 h
    obtain ⟨hid, hxy⟩ := append_inj_of_without_or_end (show BorderFree actionEnd by decide) ha.2 hb.2 hx hy hrest
    rw [String.toList_inj.1 hid]
    exact ⟨rfl, hxy⟩

/-! ### Events -/

theorem phase_inj {p q : CompiledPhaseIdentity} {x y : List Char}
    (h : (writePhase p).toList ++ (" offset_ns=".toList ++ x) = (writePhase q).toList ++ (" offset_ns=".toList ++ y)) :
    p = q ∧ x = y := by
  unfold writePhase at h
  cases p with
  | top index =>
    cases q with
    | top index' =>
      simp only [String.toList_append, Nat.toString_eq_repr, Nat.toList_repr, List.append_assoc, List.append_cancel_left_eq] at h
      obtain ⟨rfl, h⟩ := decimal_append_inj (outside_append (by decide) _) (outside_append (by decide) _) h
      exact ⟨rfl, by simpa using h⟩
    | repeated iteration' index' => simp at h
  | repeated iteration index =>
    cases q with
    | top index' => simp at h
    | repeated iteration' index' =>
      simp only [String.toList_append, Nat.toString_eq_repr, Nat.toList_repr, List.append_assoc, List.append_cancel_left_eq] at h
      obtain ⟨rfl, h⟩ := decimal_append_inj (outside_append (by decide) _) (outside_append (by decide) _) h
      simp only [List.append_cancel_left_eq] at h
      obtain ⟨rfl, h⟩ := decimal_append_inj (outside_append (by decide) _) (outside_append (by decide) _) h
      exact ⟨rfl, by simpa using h⟩

theorem event_atEvent (event : CompiledEventV2) (z : List Char) : AtEvent ((writeEvent event).toList ++ z) := by
  unfold writeEvent
  simp only [String.toList_append, List.append_assoc]
  exact .inr ⟨_, by simp [actionEnd], List.prefix_append _ _⟩

theorem event_inj {e e' : CompiledEventV2} {x y : List Char} (he : e.action.Plain) (he' : e'.action.Plain)
    (hp : Distinguished e.action.probabilities e'.action.probabilities) (hx : AtEvent x) (hy : AtEvent y)
    (h : (writeEvent e).toList ++ x = (writeEvent e').toList ++ y) : e = e' ∧ x = y := by
  obtain ⟨index, phase, offset, action⟩ := e
  obtain ⟨index', phase', offset', action'⟩ := e'
  unfold writeEvent at h
  simp only [String.toList_append, Nat.toString_eq_repr, Nat.toList_repr, List.append_assoc, List.append_cancel_left_eq] at h
  obtain ⟨rfl, h⟩ := decimal_append_inj (outside_append (by decide) _) (outside_append (by decide) _) h
  simp only [List.append_cancel_left_eq] at h
  obtain ⟨rfl, hoffset⟩ := phase_inj h
  obtain ⟨rfl, haction⟩ := decimal_append_inj (outside_append (by decide) _) (outside_append (by decide) _) hoffset
  simp only [List.append_cancel_left_eq] at haction
  obtain ⟨rfl, hxy⟩ := action_inj he he' hp hx hy haction
  exact ⟨rfl, hxy⟩

theorem events_inj {es es' : List CompiledEventV2} (he : ∀ e ∈ es, e.action.Plain) (he' : ∀ e ∈ es', e.action.Plain)
    (hp : Distinguished (es.flatMap (·.action.probabilities)) (es'.flatMap (·.action.probabilities)))
    (h : (String.join (es.map writeEvent)).toList = (String.join (es'.map writeEvent)).toList) : es = es' := by
  simp only [String.toList_join, List.flatMap_map] at h
  have hnonempty : ∀ (e : CompiledEventV2) (z : List Char), (writeEvent e).toList ++ z ≠ [] := by
    intro e z
    unfold writeEvent
    simp
  refine (@flatMap_inj_of_stop _ _ (fun e => (writeEvent e).toList)
    (fun e e' => e.action.Plain ∧ e'.action.Plain ∧ Distinguished e.action.probabilities e'.action.probabilities)
    (fun z => z = []) ?_ es es' [] [] ?_ (fun e _ => hnonempty e)
    (fun e _ => hnonempty e) rfl rfl (by simpa using h)).1
  · have hat : ∀ z, (z = [] ∨ ∃ e z', z = (writeEvent e).toList ++ z') → AtEvent z := by
      intro z hz
      rcases hz with hnil | ⟨e, z', heq⟩
      · exact .inl hnil
      · rw [heq]
        exact event_atEvent e z'
    intro e e' z w hplain heq hz hw
    exact event_inj hplain.1 hplain.2.1 hplain.2.2 (hat z hz) (hat w hw) heq
  · intro e hmem e' hmem'
    refine ⟨he e hmem, he' e' hmem', hp.mono ?_ ?_⟩
    · exact fun p hp => List.mem_flatMap_of_mem hmem hp
    · exact fun p hp => List.mem_flatMap_of_mem hmem' hp

/-! ## The whole schedule -/

theorem utf8Bytes_injective {s t : String} (h : utf8Bytes s = utf8Bytes t) : s = t := by
  have hdata : s.toByteArray.data = t.toByteArray.data := Array.toList_inj.1 h
  exact String.toByteArray_inj.1 (ByteArray.ext hdata)

/-- The policies before the seed. -/
theorem policies_inj {i i' : IsolationPolicyV2} {c c' : CleanupPolicyV2} {x y : List Char}
    (h : (writeIsolation i).toList ++ ("\ncleanup=".toList ++ ((writeCleanup c).toList ++ ("\nseed=".toList ++ x))) =
      (writeIsolation i').toList ++ ("\ncleanup=".toList ++ ((writeCleanup c').toList ++ ("\nseed=".toList ++ y)))) :
    i = i' ∧ c = c' ∧ x = y := by
  cases i <;> cases i' <;> cases c <;> cases c' <;> simp [writeIsolation, writeCleanup] at h ⊢ <;> exact h

/-- After the number of events comes an event, or nothing. -/
theorem events_outside (events : List CompiledEventV2) :
    Outside Char.isDigit (String.join (events.map writeEvent)).toList := by
  cases events with
  | nil => exact outside_nil _
  | cons event rest =>
    simp only [List.map_cons, String.join_cons, String.toList_append]
    unfold writeEvent
    simp only [String.toList_append, List.append_assoc]
    exact outside_append (by decide) _

/-- The names of the compiled schedule are plain. -/
def CompiledScenarioV2.Plain (compiled : CompiledScenarioV2) : Prop := ∀ event ∈ compiled.events, event.action.Plain

theorem compiledText_inj {a b : CompiledScenarioV2} (ha : a.Plain) (hb : b.Plain)
    (hp : Distinguished a.probabilities b.probabilities) (h : compiledText a = compiledText b) :
    a.seed = b.seed ∧ a.executionKey = b.executionKey ∧ a.isolation = b.isolation ∧ a.cleanup = b.cleanup ∧
      a.events = b.events ∧ a.totalDurationNs = b.totalDurationNs := by
  have htext := congrArg String.toList h
  unfold compiledText at htext
  simp only [String.toList_append, Nat.toString_eq_repr, Nat.toList_repr, List.append_assoc,
    List.append_cancel_left_eq] at htext
  obtain ⟨hisolation, hcleanup, htext⟩ := policies_inj htext
  obtain ⟨hseed, htext⟩ := decimal_append_inj (outside_append (by decide) _) (outside_append (by decide) _) htext
  simp only [List.append_cancel_left_eq] at htext
  obtain ⟨hkey, htext⟩ := decimal_append_inj (outside_append (by decide) _) (outside_append (by decide) _) htext
  simp only [List.append_cancel_left_eq] at htext
  obtain ⟨htotal, htext⟩ := decimal_append_inj (outside_append (by decide) _) (outside_append (by decide) _) htext
  simp only [List.append_cancel_left_eq] at htext
  obtain ⟨-, htext⟩ := decimal_append_inj (events_outside _) (events_outside _) htext
  exact ⟨UInt64.toNat_inj.1 hseed, UInt64.toNat_inj.1 hkey, hisolation, hcleanup, events_inj ha hb hp htext, htotal⟩

theorem compileSchedule_version {source : ScenarioScheduleV2} {compiled : CompiledScenarioV2}
    (h : compileSchedule source = .ok compiled) : compiled.compilerSemanticsVersion = compilerSemanticsVersion := by
  obtain ⟨top, tape, cursor, cursor', -, -, rfl⟩ := compileSchedule_ok h
  rfl

/-- Two accepted schedules with the same encoding are the same compiled schedule,
provided that no proxy name holds `;direction=`, no id of a removal holds a line
break and `event[`, no fault id holds `~` or begins like an event, and
probabilities that differ are written differently. -/
theorem encode_compiled_injective {a b : ScenarioScheduleV2} {ca cb : CompiledScenarioV2}
    (ha : compileSchedule a = .ok ca) (hb : compileSchedule b = .ok cb) (hca : ca.Plain) (hcb : cb.Plain)
    (hp : Distinguished ca.probabilities cb.probabilities)
    (h : encodeCompiledForFingerprint ca = encodeCompiledForFingerprint cb) : ca = cb := by
  obtain ⟨hseed, hkey, hisolation, hcleanup, hevents, htotal⟩ := compiledText_inj hca hcb hp (utf8Bytes_injective h)
  have hversion := (compileSchedule_version ha).trans (compileSchedule_version hb).symm
  obtain ⟨version, seed, key, isolation, cleanup, events, total⟩ := ca
  simp only at hversion hseed hkey hisolation hcleanup hevents htotal
  subst hversion hseed hkey hisolation hcleanup hevents htotal
  rfl

/-- One phase with one action, strict, restored at the end. -/
def singleAction (name : Option String) (action : ScenarioAction) : ScenarioScheduleV2 where
  version := 2
  seed := 1
  executionKey := 2
  isolation := .strict
  cleanup := .restoreInitial
  phases := [⟨name, 5, [action]⟩]
  repeatBlock := none

/-- What `singleAction` compiles to. -/
def singleTape (action : ScenarioAction) : CompiledScenarioV2 where
  compilerSemanticsVersion
  seed := 1
  executionKey := 2
  isolation := .strict
  cleanup := .restoreInitial
  events := [⟨0, .top 0, 0, action⟩]
  totalDurationNs := 5

/-- The name of a phase is not part of the tape. -/
theorem encode_compiled_injective_named :
    ∃ ca cb, compileSchedule (singleAction (some "warm up") (.removeFault "api" .upstream "slow")) = .ok ca ∧
      compileSchedule (singleAction none (.removeFault "api" .upstream "slow")) = .ok cb ∧ ca = cb := by
  have hplain : (singleTape (.removeFault "api" .upstream "slow")).Plain := by
    intro event hevent
    have : event = ⟨0, .top 0, 0, .removeFault "api" .upstream "slow"⟩ := by simpa [singleTape] using hevent
    subst this
    exact ⟨by decide, by decide⟩
  have hp : Distinguished (singleTape (.removeFault "api" .upstream "slow")).probabilities
      (singleTape (.removeFault "api" .upstream "slow")).probabilities := by
    intro p hp
    simp [CompiledScenarioV2.probabilities, singleTape, ScenarioAction.probabilities] at hp
  exact ⟨singleTape _, singleTape _, rfl, rfl,
    encode_compiled_injective (a := singleAction (some "warm up") (.removeFault "api" .upstream "slow"))
      (b := singleAction none (.removeFault "api" .upstream "slow")) rfl rfl hplain hplain hp rfl⟩

/-- A proxy name that holds the separators moves the border between the name and
the id. -/
theorem encode_compiled_collides :
    ∃ a b ca cb, compileSchedule a = .ok ca ∧ compileSchedule b = .ok cb ∧
      encodeCompiledForFingerprint ca = encodeCompiledForFingerprint cb ∧ ca.events ≠ cb.events := by
  refine ⟨singleAction none (.removeFault "p;direction=upstream;id=a" .upstream "b"),
    singleAction none (.removeFault "p" .upstream "a;direction=upstream;id=b"), singleTape _, singleTape _, rfl, rfl, ?_, ?_⟩
  · decide +kernel
  · decide

end Eggchaos
