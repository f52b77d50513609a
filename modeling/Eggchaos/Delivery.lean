import Eggchaos.Terminated
/-!
# What a read delivers

Under plans that only delay bytes, a byte read from the transport is in one of
four places: delivered, captured in the output, queued in the downstream engine,
or pending in front of it. In this order they are what was read so far, in every
state of a run, and so the delivered bytes are a prefix of it.

One step breaks this: a poll that installs the empty plan while bytes are still
queued or pending. From then on reads go straight to the transport, past the
bytes left behind.
-/

namespace Eggchaos
open Lib

/-- The faults that neither lose bytes nor end a stream. -/
def FaultKind.delays : FaultKind → Bool
  | .latency _ | .bandwidth _ | .slice _ | .slowClose _ => true
  | .blackhole _ | .limitData _ | .disconnect _ | .streamLoss _ => false

def FaultPlan.delays (plan : FaultPlan) : Bool := plan.faults.all (·.kind.delays)

namespace DirectionEngine

/-- An engine that only delays: nothing in it loses a byte or ends the stream. -/
structure Faithful (e : DirectionEngine) : Prop where
  plan : e.plan.delays
  recorded : e.termination = none
  limit : e.remainingLimit = none
  blackhole : e.blackhole = none
  disconnect : e.disconnect = none

theorem compileFault_delays {fault : FaultSpec} (h : fault.kind.delays) (ident : Identity) (now : Nat)
    (acc : Compiled) :
    (compileFault ident now acc fault).remainingLimit = acc.remainingLimit ∧
      (compileFault ident now acc fault).blackhole = acc.blackhole ∧
      (compileFault ident now acc fault).disconnect = acc.disconnect := by
  unfold compileFault
  simp only
  split
  · unfold compileKind
    split
    all_goals simp_all [FaultKind.delays]
  · exact ⟨rfl, rfl, rfl⟩

theorem compile_faithful {plan : FaultPlan} (h : plan.delays) (ident : Identity) {handle : TerminationHandle}
    (hh : handle.get = none) (now : Nat) : (compile plan ident handle now).Faithful := by
  have hfold : ∀ (faults : List FaultSpec) (acc : Compiled), faults.all (·.kind.delays) →
      (faults.foldl (compileFault ident now) acc).remainingLimit = acc.remainingLimit ∧
        (faults.foldl (compileFault ident now) acc).blackhole = acc.blackhole ∧
        (faults.foldl (compileFault ident now) acc).disconnect = acc.disconnect := by
    intro faults
    induction faults with
    | nil => exact fun acc _ => ⟨rfl, rfl, rfl⟩
    | cons fault faults ih =>
      intro acc hall
      rw [List.all_cons, Bool.and_eq_true] at hall
      obtain ⟨hl, hb, hd⟩ := compileFault_delays hall.1 ident now acc
      obtain ⟨hl', hb', hd'⟩ := ih (compileFault ident now acc fault) hall.2
      exact ⟨hl'.trans hl, hb'.trans hb, hd'.trans hd⟩
  obtain ⟨hl, hb, hd⟩ := hfold plan.faults {} h
  exact ⟨h, hh, hl, hb, hd⟩

theorem Passed.faithful {e e' : DirectionEngine} {out : List Byte} (hp : Passed e out e') (h : e.Faithful) :
    e'.Faithful := by
  have hsetup := hp.setup
  simp only [DirectionEngine.setup, Setup.mk.injEq] at hsetup
  obtain ⟨hplan, -, -, -, hblackhole, hdisconnect⟩ := hsetup
  refine ⟨hplan ▸ h.plan, ?_, ?_, hblackhole.trans h.blackhole, hdisconnect.trans h.disconnect⟩
  · rcases hp.requested with heq | ⟨-, info, hdue, -⟩
    · exact heq.trans h.recorded
    · rcases hdue with ⟨state, hs, -⟩ | ⟨deadline, id, hs, -⟩
      · simp [h.disconnect] at hs
      · simp [h.blackhole] at hs
  · obtain ⟨_, _, _, _, _, _, _, hf⟩ := hp.frame
    rw [hf]
    exact h.limit

theorem Faithful.preservingOnly {e : DirectionEngine} (h : e.Faithful) : e.isPreservingOnly := by
  rw [isPreservingOnly, List.all_eq_true]
  intro fault hmem
  have hkind := List.all_eq_true.1 h.plan fault hmem
  cases hk : fault.kind <;> simp_all [FaultKind.delays]

/-- What such an engine accepts it queues, all of it. -/
theorem Faithful.accept {e : DirectionEngine} (h : e.Faithful) (hh : e.Healthy) (c : Clock) (bytes : List Byte) :
    (e.accept c bytes).2.1.Faithful ∧
      (e.accept c bytes).2.1.queuedBytes = e.queuedBytes ++ bytes.take (e.accept c bytes).1 := by
  obtain ⟨ident, k, hl⟩ := hh.lossAt
  have hr := e.refresh_passed c
  have hf := hr.faithful h
  have hl' := hr.lossAt hl
  have hacc := accept_accepted hl c bytes
  have hdis : e.discardsAt c = false := by
    simp only [discardsAt, blackholeDiscarding, hf.blackhole]
  rw [hdis] at hacc
  have hsetup := hacc.setup
  simp only [DirectionEngine.setup, Setup.mk.injEq] at hsetup
  obtain ⟨hplan, -, -, -, hblackhole, hdisconnect⟩ := hsetup
  have hlimit : (e.accept c bytes).2.1.remainingLimit = none := by rw [hacc.limit, hf.limit]; rfl
  constructor
  · refine ⟨hplan ▸ hf.plan, ?_, hlimit, hblackhole.trans hf.blackhole, hdisconnect.trans hf.disconnect⟩
    rcases eq_or_ne bytes [] with hnil | hne
    · rw [hacc.idle hnil]
      exact hf.recorded
    · rw [hacc.requested hne, hf.recorded, exhaustedInfo, hlimit]
      rfl
  · have hkept := survivors_of_not_lossy hl' (preserving_not_lossy hl' hf.preservingOnly)
      (bytes.take (e.accept c bytes).1)
    rw [queuedBytes_eq, queuedBytes_eq, hacc.bytes, hkept, hr.bytes, List.nil_append]

theorem accept_maxBuffer {e : DirectionEngine} (hh : e.Healthy) (c : Clock) (bytes : List Byte) :
    (e.accept c bytes).2.1.maxBuffer = e.maxBuffer := by
  obtain ⟨ident, k, hl⟩ := hh.lossAt
  exact (accept_accepted hl c bytes).maxBuffer.trans (e.refresh_passed c).maxBuffer

theorem Faithful.accept_room {e : DirectionEngine} (h : e.Faithful) (hh : e.Healthy) (c : Clock) {bytes : List Byte}
    (hne : bytes ≠ []) : (e.accept c bytes).1 = min (min bytes.length u64Max) (e.maxBuffer - e.buffered) := by
  rw [DirectionEngine.accept_room hh h.preservingOnly c hne, room, limitAvailable, h.limit]

/-- With nothing queued it takes something of every input. -/
theorem Faithful.accept_pos {e : DirectionEngine} (h : e.Faithful) (hh : e.Healthy) (hq : e.queue = []) (c : Clock)
    {bytes : List Byte} (hne : bytes ≠ []) : (e.accept c bytes).1 ≠ 0 := by
  have hbuf : e.buffered = 0 := by simp [hh.buffered, hq]
  have hroom := hh.room
  have hlen : 0 < bytes.length := List.length_pos_iff.2 hne
  rw [h.accept_room hh c hne]
  simp only [u64Max]
  omega

end DirectionEngine

namespace BidirectionalChaosStream
variable {τ : Type}

/-! ## Where the bytes are -/

/-- Every byte read from the transport is delivered, captured, queued or pending. -/
structure Carried (delivered : List Byte) (s : BidirectionalChaosStream (Tap τ)) : Prop where
  faithful : s.downstream.Faithful
  offered : ∀ policy, s.downstreamPolicy = some policy → policy.snapshot.plan.delays
  bytes : delivered ++ s.output ++ s.downstream.queuedBytes ++ s.pendingDownstream = s.inner.read

theorem Carried.same {delivered : List Byte} {s s' : BidirectionalChaosStream (Tap τ)} (h : s.Carried delivered)
    (hd : s'.downstream = s.downstream) (hp : s'.downstreamPolicy = s.downstreamPolicy) (ho : s'.output = s.output)
    (hpend : s'.pendingDownstream = s.pendingDownstream) (hread : s'.inner.read = s.inner.read) :
    s'.Carried delivered := by
  refine ⟨hd ▸ h.faithful, ?_, ?_⟩
  · rw [hp]
    exact h.offered
  · rw [hd, ho, hpend, hread]
    exact h.bytes

theorem flushDownstream_carried {delivered : List Byte} {s : BidirectionalChaosStream (Tap τ)}
    (h : s.Carried delivered) (c : Clock) : (s.flushDownstream c).2.1.Carried delivered := by
  obtain ⟨out, hp, ho⟩ := s.flushDownstream_passed c
  refine ⟨hp.faithful h.faithful, h.offered, ?_⟩
  have hb := h.bytes
  rw [DirectionEngine.queuedBytes_eq, hp.bytes, ← DirectionEngine.queuedBytes_eq] at hb
  rw [ho, ← List.append_assoc delivered, List.append_assoc _ out]
  exact hb

/-- Handing in bytes that are the next ones to come. -/
theorem acceptDownstream_carried {delivered : List Byte} {s : BidirectionalChaosStream (Tap τ)}
    (hh : s.downstream.Healthy) (hf : s.downstream.Faithful)
    (ho : ∀ policy, s.downstreamPolicy = some policy → policy.snapshot.plan.delays)
    (hpend : s.pendingDownstream = []) {bytes : List Byte}
    (hb : delivered ++ s.output ++ s.downstream.queuedBytes ++ bytes = s.inner.read) (c : Clock) :
    (s.acceptDownstream c bytes).2.1.Carried delivered := by
  obtain ⟨hf', hq⟩ := hf.accept hh c bytes
  refine ⟨hf', ho, ?_⟩
  simp only [acceptDownstream, mirrorDownstream, hq, hpend, List.nil_append]
  rw [← hb]
  simp [List.append_assoc, List.take_append_drop]

/-- A read that ends: what it hands out is next, and an end of stream comes only
when nothing is left. -/
def Delivers (delivered : List Byte) (cap : Nat) (outcome : Poll (IoResult (List Byte)))
    (s : BidirectionalChaosStream (Tap τ)) : Prop :=
  s.Carried (delivered ++ handedOut outcome) ∧ (0 < cap → outcome = .ready (.ok []) → delivered = s.inner.read)

/-- Ending without bytes and without the end of the stream. -/
theorem Carried.delivers {delivered : List Byte} {s : BidirectionalChaosStream (Tap τ)} (h : s.Carried delivered)
    (cap : Nat) {outcome : Poll (IoResult (List Byte))} (hout : outcome.isPending ∨ outcome.isError) :
    Delivers delivered cap outcome s := by
  match outcome, hout with
  | .pending, _ => exact ⟨by simpa [handedOut] using h, by simp⟩
  | .ready (.error error), _ => exact ⟨by simpa [handedOut] using h, by simp⟩

/-- A faithful engine refuses bytes only with others queued. -/
theorem acceptDownstream_refuses {s : BidirectionalChaosStream (Tap τ)} (hh : s.downstream.Healthy)
    (hf : s.downstream.Faithful) {bytes : List Byte} (hne : bytes ≠ []) {c : Clock}
    (hz : (s.acceptDownstream c bytes).1 = 0) :
    (s.acceptDownstream c bytes).2.1.downstream.queueIsEmpty = false := by
  obtain ⟨-, hq⟩ := hf.accept hh c bytes
  simp only [acceptDownstream] at hz
  rw [hz, List.take_zero, List.append_nil] at hq
  by_contra hempty
  refine hf.accept_pos hh ?_ c hne hz
  apply hh.solid.eq_nil
  rw [← DirectionEngine.queuedBytes_eq, ← hq]
  simp only [acceptDownstream, mirrorDownstream, DirectionEngine.queueIsEmpty, Bool.not_eq_false,
    List.isEmpty_iff] at hempty
  simp [DirectionEngine.queuedBytes, hempty]

theorem offerPending_carried {delivered : List Byte} {s : BidirectionalChaosStream (Tap τ)} (hr : s.Reading)
    (h : s.Carried delivered) (hne : s.pendingDownstream ≠ []) (c : Clock) (cap : Nat) :
    (s.offerPending c).Sat (Carried delivered) (Delivers delivered cap) := by
  have ha := acceptDownstream_carried (s := { s with pendingDownstream := [] }) hr.downstream h.faithful h.offered rfl
    h.bytes c
  have hrefuse := acceptDownstream_refuses (s := { s with pendingDownstream := [] }) (c := c) hr.downstream h.faithful hne
  unfold offerPending
  simp only
  generalize ({ s with pendingDownstream := [] } : BidirectionalChaosStream (Tap τ)).acceptDownstream c
    s.pendingDownstream = accepted at *
  split
  · next hz =>
    rw [hrefuse hz]
    have hf := flushDownstream_carried ha accepted.2.2
    simp only [Bool.false_eq_true, if_false]
    split
    · next hflush =>
      rw [hflush] at hf
      exact hf.delivers cap (.inr rfl)
    · next hflush =>
      rw [hflush] at hf
      split
      · exact hf.delivers cap (.inl rfl)
      · exact hf
  · exact ha

variable [AsyncRead τ]

/-- Reading the transport with nothing else left. -/
theorem readInner_carried {delivered : List Byte} {s : BidirectionalChaosStream (Tap τ)} (hr : s.Reading)
    (h : s.Carried delivered) (ho : s.output = []) (hpend : s.pendingDownstream = []) (hq : s.downstream.queue = [])
    (c : Clock) (cap : Nat) : (s.readInner c).Sat (Carried delivered) (Delivers delivered cap) := by
  have hqueued : s.downstream.queuedBytes = [] := by simp [DirectionEngine.queuedBytes, hq]
  have hall : delivered = s.inner.read := by simpa [ho, hpend, hqueued] using h.bytes
  have hread : (AsyncRead.pollRead s.inner readChunk).2.read =
      s.inner.read ++ handedOut (AsyncRead.pollRead s.inner readChunk).1 := rfl
  unfold readInner
  generalize AsyncRead.pollRead s.inner readChunk = answer at *
  obtain ⟨outcome, inner⟩ := answer
  simp only at hread
  cases outcome with
  | ready answer =>
    cases answer with
    | ok bytes =>
      simp only [handedOut] at hread ⊢
      split
      · next hnil =>
        obtain rfl : bytes = [] := by simpa using hnil
        have hsame : ({ s with inner } : BidirectionalChaosStream (Tap τ)).Carried delivered :=
          h.same rfl rfl rfl rfl (by simpa using hread)
        refine ⟨by simpa [handedOut] using hsame, fun _ _ => ?_⟩
        simpa [hread] using hall
      · have hnext : delivered ++ s.output ++ s.downstream.queuedBytes ++ bytes = inner.read := by
          simp [ho, hqueued, hall, hread]
        have ha := acceptDownstream_carried (s := { s with inner }) hr.downstream h.faithful h.offered hpend hnext c
        split
        · exact ha.delivers cap (.inl rfl)
        · exact ha
    | error error =>
      have hsame : ({ s with inner } : BidirectionalChaosStream (Tap τ)).Carried delivered :=
        h.same rfl rfl rfl rfl (by simpa [handedOut] using hread)
      exact hsame.delivers cap (.inr rfl)
  | pending =>
    have hsame : ({ s with inner } : BidirectionalChaosStream (Tap τ)).Carried delivered :=
      h.same rfl rfl rfl rfl (by simpa [handedOut] using hread)
    exact hsame.delivers cap (.inl rfl)

theorem readDrained_carried {delivered : List Byte} {s : BidirectionalChaosStream (Tap τ)} (hr : s.Reading)
    (h : s.Carried delivered) (ho : s.output = []) (hpend : s.pendingDownstream = []) (hq : s.downstream.queue = [])
    (c : Clock) (cap : Nat) : (s.readDrained c).Sat (Carried delivered) (Delivers delivered cap) := by
  have hnone : s.downstream.terminationRequest = none := by
    simp [DirectionEngine.terminationRequest, h.faithful.recorded]
  rw [readDrained, hnone]
  exact readInner_carried hr h ho hpend hq c cap

theorem readTurn_carried {delivered : List Byte} {s : BidirectionalChaosStream (Tap τ)} (hr : s.Reading)
    (h : s.Carried delivered) (c : Clock) (cap : Nat) :
    (s.readTurn c cap).Sat (Carried delivered) (Delivers delivered cap) := by
  unfold readTurn
  split
  · next hout =>
    have hpos : 0 < s.output.length := by
      rw [List.length_pos_iff]
      simpa using hout
    refine ⟨⟨h.faithful, h.offered, ?_⟩, ?_⟩
    · simp only [handedOut]
      rw [List.append_assoc delivered, List.take_append_drop]
      exact h.bytes
    · intro hcap heq
      have hlen := congrArg List.length (Except.ok.inj (Poll.ready.inj heq))
      rw [List.length_take, List.length_nil] at hlen
      omega
  next hout =>
  have hout : s.output = [] := by simpa using hout
  split
  · next hpend => exact offerPending_carried hr h (by simpa using hpend) c cap
  next hpend =>
  have hpend : s.pendingDownstream = [] := by simpa using hpend
  split
  · have hf := flushDownstream_carried h c
    have hread := flushDownstream_reading hr c
    have hok : (s.flushDownstream c).1 = .ready (.ok ()) → (s.flushDownstream c).2.1.downstream.queue = [] :=
      DirectionEngine.pollFlush_ok
    have hsame : (s.flushDownstream c).2.1.pendingDownstream = s.pendingDownstream := rfl
    split
    · next s' c' hflush =>
      rw [hflush] at hf
      have hm : s'.mirrorDownstream.Carried delivered := hf.same rfl rfl rfl rfl rfl
      exact hm.delivers cap (.inl rfl)
    · next error s' c' hflush =>
      rw [hflush] at hf
      have hm : s'.mirrorDownstream.Carried delivered := hf.same rfl rfl rfl rfl rfl
      exact hm.delivers cap (.inr rfl)
    · next s' c' hflush =>
      rw [hflush] at hf hread hok hsame
      have hm : s'.mirrorDownstream.Carried delivered := hf.same rfl rfl rfl rfl rfl
      have hread' : s'.mirrorDownstream.Reading := hread.same rfl rfl
      simp only
      split
      · exact hm
      · next hcaptured =>
        exact readDrained_carried hread' hm (by simpa using hcaptured) (hsame.trans hpend) (hok rfl) c' cap
  · next hq => exact readDrained_carried hr h hout hpend (by simpa [DirectionEngine.queueIsEmpty] using hq) c cap

/-! ## A read returns -/

/-- How many turns are still to come before the one that returns. -/
def turns (s : BidirectionalChaosStream (Tap τ)) : Nat :=
  if ¬ s.output.isEmpty then 0
  else if ¬ s.pendingDownstream.isEmpty then
    if s.downstream.maxBuffer ≤ s.downstream.buffered then 1 else 2
  else if ¬ s.downstream.queueIsEmpty then 1 else 2

omit [AsyncRead τ] in
theorem turns_le (s : BidirectionalChaosStream (Tap τ)) : s.turns ≤ 2 := by
  unfold turns
  split_ifs <;> omega

omit [AsyncRead τ] in
theorem turns_of_output {s : BidirectionalChaosStream (Tap τ)} (h : s.output ≠ []) : s.turns = 0 := by
  rw [turns, if_pos (by simpa using h)]

omit [AsyncRead τ] in
/-- Bytes that were taken are queued, and pending ones are left only by a full
engine. -/
theorem acceptDownstream_turns {s : BidirectionalChaosStream (Tap τ)} (hr : s.Reading) (hf : s.downstream.Faithful)
    (hpend : s.pendingDownstream = []) {bytes : List Byte} (hne : bytes ≠ []) {c : Clock}
    (hpos : (s.acceptDownstream c bytes).1 ≠ 0) : (s.acceptDownstream c bytes).2.1.turns ≤ 1 := by
  have hroom := hf.accept_room hr.downstream c hne
  have hmax := DirectionEngine.accept_maxBuffer hr.downstream c bytes
  have hbuf' : (s.downstream.accept c bytes).2.1.buffered = _ :=
    (acceptDownstream_reading hr c bytes).downstream.buffered
  have hlen := congrArg List.length (hf.accept hr.downstream c bytes).2
  rw [List.length_append, List.length_take, DirectionEngine.queuedBytes_eq, DirectionEngine.queuedBytes_eq,
    ← hr.downstream.buffered] at hlen
  have hbound := hr.downstream.bound
  have hpos' : 0 < bytes.length := List.length_pos_iff.2 hne
  unfold turns
  simp only [acceptDownstream, mirrorDownstream, hpend, List.nil_append] at hpos hbuf' ⊢
  generalize s.downstream.accept c bytes = answer at *
  obtain ⟨accepted, downstream, c'⟩ := answer
  simp only at hroom hmax hbuf' hlen hpos ⊢
  split
  · exact Nat.zero_le 1
  split
  · next hleft =>
    have hshort : accepted < bytes.length := by simpa using hleft
    rw [if_pos (by omega)]
  · split
    · exact le_rfl
    · next hempty =>
      have hnil : downstream.queue = [] := by simpa [DirectionEngine.queueIsEmpty] using hempty
      rw [hnil, segmentBytes_nil, List.length_nil] at hlen
      omega

omit [AsyncRead τ] in
/-- A flush of a queue that is not empty captures something, or is pending. -/
theorem flushDownstream_captures {s : BidirectionalChaosStream (Tap τ)} (hh : s.downstream.Healthy)
    (hq : s.downstream.queue ≠ []) {c : Clock} (hok : (s.flushDownstream c).1 = .ready (.ok ())) :
    (s.flushDownstream c).2.1.output ≠ [] := by
  obtain ⟨out, hp, ho⟩ := s.flushDownstream_passed c
  have hnil : (s.flushDownstream c).2.1.downstream.queue = [] := DirectionEngine.pollFlush_ok hok
  have hb := hp.bytes
  rw [hnil, segmentBytes_nil, List.append_nil] at hb
  rw [ho]
  intro hempty
  apply hq
  apply hh.solid.eq_nil
  rw [hb]
  exact (List.append_eq_nil_iff.1 hempty).2

omit [AsyncRead τ] in
theorem offerPending_turns {s : BidirectionalChaosStream (Tap τ)} (hr : s.Reading) (hf : s.downstream.Faithful)
    (hout : s.output = []) (hne : s.pendingDownstream ≠ []) (c : Clock) :
    (s.offerPending c).Sat (fun s' => s'.turns < s.turns) fun _ _ => True := by
  have hread := acceptDownstream_reading (s := { s with pendingDownstream := [] }) (hr.same rfl rfl) c
    s.pendingDownstream
  have hturns := acceptDownstream_turns (s := { s with pendingDownstream := [] }) (c := c) (hr.same rfl rfl) hf rfl hne
  have hroom : (({ s with pendingDownstream := [] } : BidirectionalChaosStream (Tap τ)).acceptDownstream c
      s.pendingDownstream).1 = _ := hf.accept_room hr.downstream c hne
  have hstart : s.turns = if s.downstream.maxBuffer ≤ s.downstream.buffered then 1 else 2 := by
    rw [turns, if_neg (by simp [hout]), if_pos (by simpa using hne)]
  unfold offerPending
  simp only
  generalize ({ s with pendingDownstream := [] } : BidirectionalChaosStream (Tap τ)).acceptDownstream c
    s.pendingDownstream = accepted at *
  split
  · split
    · trivial
    next hq =>
    have hcaptures := flushDownstream_captures (c := accepted.2.2) hread.downstream
      (by simpa [DirectionEngine.queueIsEmpty] using hq)
    split
    · trivial
    · next outcome s' c' hnoerr hflush =>
      rw [hflush] at hcaptures
      -- A flush that goes on has captured something, so the next turn returns it.
      split
      · trivial
      · next hgo =>
        have hcaptured : s'.output ≠ [] := by
          cases outcome with
          | pending => simpa using hgo
          | ready answer =>
            cases answer with
            | ok _ => exact hcaptures rfl
            | error error => exact absurd rfl (hnoerr error)
        simp only [Turn.Sat]
        rw [turns_of_output hcaptured, hstart]
        split <;> omega
  · next hpos =>
    simp only [Turn.Sat]
    have hle := hturns hpos
    rw [hroom] at hpos
    rw [hstart, if_neg (by omega)]
    exact Nat.lt_succ_of_le hle

theorem readInner_turns {s : BidirectionalChaosStream (Tap τ)} (hr : s.Reading) (hf : s.downstream.Faithful)
    (hpend : s.pendingDownstream = []) (c : Clock) : (s.readInner c).Sat (fun s' => s'.turns ≤ 1) fun _ _ => True := by
  unfold readInner
  split
  · next bytes inner _ =>
    simp only
    split
    · trivial
    next hne =>
    split
    · trivial
    · next hpos =>
      exact acceptDownstream_turns (s := { s with inner }) (hr.same rfl rfl) hf hpend (by simpa using hne) hpos
  · trivial
  · trivial

/-- Every turn that goes on brings the read closer to its end. -/
theorem readTurn_turns {s : BidirectionalChaosStream (Tap τ)} (hr : s.Reading) (hf : s.downstream.Faithful) (c : Clock)
    (cap : Nat) : (s.readTurn c cap).Sat (fun s' => s'.turns < s.turns) fun _ _ => True := by
  unfold readTurn
  split
  · trivial
  next hout =>
  have hout : s.output = [] := by simpa using hout
  split
  · next hpend => exact offerPending_turns hr hf hout (by simpa using hpend) c
  next hpend =>
  have hpend : s.pendingDownstream = [] := by simpa using hpend
  split
  · next hq =>
    have hturns : s.turns = 1 := by
      rw [turns, if_neg (by simp [hout]), if_neg (by simp [hpend]), if_pos hq]
    have hcaptures := flushDownstream_captures (c := c) hr.downstream (by simpa [DirectionEngine.queueIsEmpty] using hq)
    split
    · trivial
    · trivial
    · next s' c' hflush =>
      rw [hflush] at hcaptures
      have hne : s'.mirrorDownstream.output ≠ [] := hcaptures rfl
      simp only
      rw [if_pos (by simpa using hne), hturns]
      simp only [Turn.Sat]
      rw [turns_of_output hne]
      exact Nat.zero_lt_one
  · next hq =>
    have hturns : s.turns = 2 := by
      rw [turns, if_neg (by simp [hout]), if_neg (by simp [hpend]), if_neg hq]
    have hnone : s.downstream.terminationRequest = none := by
      simp [DirectionEngine.terminationRequest, hf.recorded]
    rw [readDrained, hnone, hturns]
    exact (readInner_turns hr hf hpend c).mono (fun _ hle => Nat.lt_succ_of_le hle) fun _ _ h => h

/-! ## Whole polls -/

/-- A stream that carries every byte, and nothing past an engine without a plan. -/
structure Intact (delivered : List Byte) (s : BidirectionalChaosStream (Tap τ)) : Prop extends Fit s where
  carried : s.Carried delivered
  direct : s.downstream.isEmpty → s.output = [] ∧ s.pendingDownstream = []

omit [AsyncRead τ] in
/-- The write direction does not touch what reads deliver. -/
theorem Intact.same {delivered : List Byte} {s s' : BidirectionalChaosStream (Tap τ)} (h : s.Intact delivered)
    (hu : s'.upstream.Healthy) (hd : s'.downstream = s.downstream) (hp : s'.downstreamPolicy = s.downstreamPolicy)
    (ho : s'.output = s.output) (hpend : s'.pendingDownstream = s.pendingDownstream)
    (hread : s'.inner.read = s.inner.read) : s'.Intact delivered := by
  refine ⟨⟨hu, hd ▸ h.downstream⟩, h.carried.same hd hp ho hpend hread, ?_⟩
  rw [hd, ho, hpend]
  exact h.direct

/-- This update installs the empty plan with bytes still queued or pending. -/
def StrandsDownstream (s : BidirectionalChaosStream (Tap τ)) (c : Clock) : Prop :=
  match LivePolicy.newer s.downstreamPolicy s.observedDownstream with
  | none => False
  | some snapshot => snapshot.plan.isEmpty = true ∧ s.output.isEmpty = true ∧
      (s.downstream.barrier (CaptureWriter.mk s.output) c).1 = false ∧
      (s.downstream.queueIsEmpty = false ∨ s.pendingDownstream.isEmpty = false)

instance (s : BidirectionalChaosStream (Tap τ)) (c : Clock) : Decidable (s.StrandsDownstream c) := by
  unfold StrandsDownstream
  split
  · infer_instance
  · infer_instance

omit [AsyncRead τ] in
/-- The engine an update leaves is faithful, and without a plan only if nothing is
left behind. -/
theorem updateDownstream_faithful {delivered : List Byte} {s : BidirectionalChaosStream (Tap τ)}
    (h : s.Intact delivered) {c : Clock} (hs : ¬ s.StrandsDownstream c) :
    (s.updateDownstream c).2.1.downstream.Faithful ∧
      (s.updateDownstream c).2.1.downstreamPolicy = s.downstreamPolicy ∧
      ((s.updateDownstream c).2.1.downstream.isEmpty →
        (s.updateDownstream c).2.1.output = [] ∧ (s.updateDownstream c).2.1.pendingDownstream = []) := by
  unfold StrandsDownstream at hs
  unfold updateDownstream
  cases hn : LivePolicy.newer s.downstreamPolicy s.observedDownstream with
  | none => exact ⟨h.carried.faithful, rfl, h.direct⟩
  | some snapshot =>
    have hplan : snapshot.plan.delays := by
      unfold LivePolicy.newer at hn
      split at hn
      · cases hn
      · next policy hp =>
        split at hn
        · cases hn
        · cases hn
          exact h.carried.offered policy hp
    simp only [hn] at hs ⊢
    split
    · exact ⟨h.carried.faithful, rfl, h.direct⟩
    next hout =>
    have hout : s.output = [] := by simpa using hout
    obtain ⟨out, hp, hlog⟩ := s.downstream.barrier_passed (CaptureWriter.mk s.output) c
    have hf := hp.faithful h.carried.faithful
    split
    · next hheld =>
      refine ⟨hf, rfl, fun hempty => ?_⟩
      -- An engine without a plan has nothing queued and holds nothing up.
      have hplain : s.downstream.isEmpty := by
        rw [DirectionEngine.isEmpty, ← hp.plan]
        exact hempty
      simp [DirectionEngine.barrier, DirectionEngine.queueIsEmpty, h.downstream.direct hplain] at hheld
    · next hheld =>
      have hslot : (s.downstream.barrier (CaptureWriter.mk s.output) c).2.1.termHandle.get = none :=
        (hp.synced h.downstream.synced).trans hf.recorded
      refine ⟨?_, rfl, fun hempty => ?_⟩
      · have hcompiled := DirectionEngine.compile_faithful hplan
          ⟨snapshot.seedNamespace, s.proxy, s.connectionKey, .downstream⟩ hslot
          (s.downstream.barrier (CaptureWriter.mk s.output) c).2.2.2.now
        exact ⟨hcompiled.plan, hcompiled.recorded, hcompiled.limit, hcompiled.blackhole, hcompiled.disconnect⟩
      · have hclean : s.downstream.queueIsEmpty = true ∧ s.pendingDownstream = [] := by
          by_contra hleft
          refine hs ⟨hempty, by simp [hout], by simpa using hheld, ?_⟩
          cases hq : s.downstream.queueIsEmpty with
          | false => exact .inl rfl
          | true => exact .inr (by simpa [hq] using hleft)
        refine ⟨?_, hclean.2⟩
        simp [DirectionEngine.barrier, hclean.1, hout]

omit [AsyncRead τ] in
theorem updateDownstream_intact {delivered : List Byte} {s : BidirectionalChaosStream (Tap τ)} (h : s.Intact delivered)
    {c : Clock} (hs : ¬ s.StrandsDownstream c) : (s.updateDownstream c).2.1.Intact delivered := by
  obtain ⟨hkeep, -, hinner, hpend⟩ := updateDownstream_keeps h.downstream c
  obtain ⟨hf, hpolicy, hdirect⟩ := updateDownstream_faithful h hs
  refine ⟨updateDownstream_fit h.toFit c, ⟨hf, ?_, ?_⟩, hdirect⟩
  · rw [hpolicy]
    exact h.carried.offered
  · rw [hpend, hinner, List.append_assoc delivered, hkeep, ← List.append_assoc]
    exact h.carried.bytes

variable [AsyncWrite τ]

/-- The update a poll begins with strands bytes. -/
def Strands (s : BidirectionalChaosStream (Tap τ)) (c : Clock) : Prop :=
  match s.updateUpstream c with
  | (.pending, _, _) => False
  | (.ready (), s, c) => s.StrandsDownstream c

instance (s : BidirectionalChaosStream (Tap τ)) (c : Clock) : Decidable (s.Strands c) := by
  unfold Strands
  split
  · infer_instance
  · infer_instance

omit [AsyncRead τ] in
theorem intactRule (delivered : List Byte) :
    WriteRule fun s : BidirectionalChaosStream (Tap τ) => s.Intact delivered where
  passed _ h hp hw := h.same (hp.healthy h.upstream) rfl rfl rfl rfl hw.read
  accept c bytes h hne := h.same (DirectionEngine.accept_healthy h.upstream hne c bytes) rfl rfl rfl rfl rfl
  replace _ _ h := h.same (DirectionEngine.replace_healthy _ _ _ _ _ _) rfl rfl rfl rfl rfl
  evidence _ h := h.same h.upstream rfl rfl rfl rfl rfl

omit [AsyncRead τ] in
theorem updatePolicies_intact {delivered : List Byte} {s : BidirectionalChaosStream (Tap τ)} (h : s.Intact delivered)
    {c : Clock} (hs : ¬ s.Strands c) : (s.updatePolicies c).2.1.Intact delivered := by
  have hu := (intactRule delivered).updateUpstream h c
  unfold Strands at hs
  unfold updatePolicies
  split
  · next hr => rw [hr] at hu; exact hu
  · next s' c' hr =>
    rw [hr] at hu hs
    have hd := updateDownstream_intact hu hs
    split
    · next hr' => rw [hr'] at hd; exact hd
    · next hr' => rw [hr'] at hd; exact hd

/-- What a whole read does: its bytes are the next ones, and the end of the stream
comes only when all have been delivered. -/
def ReadIntact (delivered : List Byte) (cap : Nat) (outcome : Poll (IoResult (List Byte)))
    (s : BidirectionalChaosStream (Tap τ)) : Prop :=
  s.Intact (delivered ++ handedOut outcome) ∧ (0 < cap → outcome = .ready (.ok []) → delivered = s.inner.read)

omit [AsyncWrite τ] in
/-- The direct path: nothing is in between. -/
theorem direct_intact {delivered : List Byte} {s : BidirectionalChaosStream (Tap τ)} (h : s.Intact delivered)
    (hempty : s.downstream.isEmpty) (cap : Nat) (ev : StreamEvidence) :
    ReadIntact delivered cap (AsyncRead.pollRead s.inner cap).1
      { s with inner := (AsyncRead.pollRead s.inner cap).2, downstreamEvidence := ev } := by
  obtain ⟨ho, hpend⟩ := h.direct hempty
  have hqueued : s.downstream.queuedBytes = [] := by
    simp [DirectionEngine.queuedBytes, h.downstream.direct hempty]
  have hall : delivered = s.inner.read := by simpa [ho, hpend, hqueued] using h.carried.bytes
  have hread : (AsyncRead.pollRead s.inner cap).2.read =
      s.inner.read ++ handedOut (AsyncRead.pollRead s.inner cap).1 := rfl
  refine ⟨⟨⟨h.upstream, h.downstream⟩, ⟨h.carried.faithful, h.carried.offered, ?_⟩, h.direct⟩, fun _ hend => ?_⟩
  · simp only [ho, hpend, hqueued, List.append_nil]
    rw [hall, hread]
  · simp only [hread, hend, handedOut, List.append_nil]
    exact hall

theorem settledRead_intact {delivered : List Byte} {s s' : BidirectionalChaosStream (Tap τ)} (h : s.Intact delivered)
    {fuel cap : Nat} {c c' : Clock} {outcome : Poll (IoResult (List Byte))}
    (hr : s.settledRead fuel c cap = some (outcome, s', c')) : ReadIntact delivered cap outcome s' := by
  have hp := (intactRule delivered).pumped h c
  unfold settledRead at hr
  generalize s.pump c = pumped at hp hr
  obtain ⟨s₁, c₁⟩ := pumped
  simp only at hp hr
  split at hr
  · next hempty =>
    have hd := direct_intact hp hempty cap
    generalize AsyncRead.pollRead s₁.inner cap = answer at *
    split at hr
    · simp only [Option.some.injEq, Prod.mk.injEq] at hr
      rw [← hr.1, ← hr.2.1]
      exact hd _
    · simp only [Option.some.injEq, Prod.mk.injEq] at hr
      rw [← hr.1, ← hr.2.1]
      exact hd _
  · next hne =>
    have hread : s₁.Reading ∧ s₁.Carried delivered := ⟨⟨hp.toFit, by simpa using hne⟩, hp.carried⟩
    obtain ⟨hreading, hcarried, hend⟩ := readLoop_inv
      (fun s c h => (readTurn_reading h.1 c cap).and (readTurn_carried h.1 h.2 c cap)) hread hr
    refine ⟨⟨hreading.toFit, hcarried, fun hempty => ?_⟩, hend⟩
    rw [hreading.planned] at hempty
    cases hempty

theorem pollRead_intact {delivered : List Byte} {s s' : BidirectionalChaosStream (Tap τ)} (h : s.Intact delivered)
    {fuel cap : Nat} {c c' : Clock} (hs : ¬ s.Strands c) {outcome : Poll (IoResult (List Byte))}
    (hr : s.pollRead fuel c cap = some (outcome, s', c')) : ReadIntact delivered cap outcome s' := by
  have hu := updatePolicies_intact h hs
  unfold pollRead at hr
  split at hr
  · next hq => rw [hq] at hu; exact settledRead_intact hu hr
  · next hq =>
    rw [hq] at hu
    simp only [Option.some.injEq, Prod.mk.injEq] at hr
    rw [← hr.1, ← hr.2.1]
    exact ⟨by simpa [handedOut] using hu, by simp⟩
  · next hq =>
    rw [hq] at hu
    simp only [Option.some.injEq, Prod.mk.injEq] at hr
    rw [← hr.1, ← hr.2.1]
    exact ⟨by simpa [handedOut] using hu, by simp⟩

/-- Three turns are enough for every read. -/
theorem settledRead_returns {delivered : List Byte} {s : BidirectionalChaosStream (Tap τ)} (h : s.Intact delivered)
    {fuel : Nat} (hfuel : 3 ≤ fuel) (c : Clock) (cap : Nat) : (s.settledRead fuel c cap).isSome := by
  have hp := (intactRule delivered).pumped h c
  unfold settledRead
  generalize s.pump c = pumped at *
  obtain ⟨s₁, c₁⟩ := pumped
  simp only at hp ⊢
  split
  · split <;> rfl
  · next hne =>
    have hread : s₁.Reading ∧ s₁.Carried delivered := ⟨⟨hp.toFit, by simpa using hne⟩, hp.carried⟩
    refine readLoop_returns (A := fun s => s.Reading ∧ s.Carried delivered) (fun s c h => ?_) hread
      (Nat.lt_of_le_of_lt s₁.turns_le hfuel) c₁
    have hturn := ((readTurn_reading h.1 c cap).and (readTurn_carried h.1 h.2 c cap)).and
      (readTurn_turns h.1 h.2.faithful c cap)
    exact hturn.mono (fun _ h => h) fun _ _ _ => trivial

theorem pollRead_returns {delivered : List Byte} {s : BidirectionalChaosStream (Tap τ)} (h : s.Intact delivered)
    {c : Clock} (hs : ¬ s.Strands c) {fuel : Nat} (hfuel : 3 ≤ fuel) (cap : Nat) :
    (s.pollRead fuel c cap).isSome := by
  have hu := updatePolicies_intact h hs
  unfold pollRead
  split
  · next hq => rw [hq] at hu; exact settledRead_returns hu hfuel _ cap
  · rfl
  · rfl

end BidirectionalChaosStream

/-! ## Runs -/

namespace BidirectionalRun
variable {τ : Type} [AsyncWrite τ] [AsyncRead τ]

/-- The operation publishes no downstream plan but one that only delays. -/
def Op.delays : Op → Bool
  | .publishDownstream plan _ => plan.delays
  | _ => true

/-- The operation strands nothing: it is a publication, or a poll that does not
install the empty downstream plan over bytes that are still queued or pending. -/
def Unstranding (s : BidirectionalRun τ) : Op → Prop
  | .publishUpstream _ _ | .publishDownstream _ _ => True
  | _ => ¬ s.stream.Strands s.clock

instance (s : BidirectionalRun τ) (op : Op) : Decidable (s.Unstranding op) := by
  unfold Unstranding
  split
  all_goals infer_instance

theorem step_intact {s : BidirectionalRun τ} (h : s.stream.Intact s.delivered) {op : Op} (hd : op.delays)
    (ho : s.Unstranding op) : (step s op).stream.Intact (step s op).delivered := by
  have hrule := BidirectionalChaosStream.intactRule (τ := τ) s.delivered
  cases op with
  | read cap fuel =>
    simp only [step]
    split
    · next hr => exact (BidirectionalChaosStream.pollRead_intact h ho hr).1
    · exact h
  | write bytes => exact hrule.pollWrite (BidirectionalChaosStream.updatePolicies_intact h ho) bytes
  | writeVectored bufs => exact hrule.pollWrite (BidirectionalChaosStream.updatePolicies_intact h ho) bufs.flatten
  | flush => exact hrule.pollFlush (BidirectionalChaosStream.updatePolicies_intact h ho)
  | shutdown => exact hrule.pollShutdown (BidirectionalChaosStream.updatePolicies_intact h ho)
  | publishUpstream plan seed => exact h.same h.upstream rfl rfl rfl rfl rfl
  | publishDownstream plan seed =>
    refine ⟨⟨h.upstream, h.downstream⟩, ⟨h.carried.faithful, ?_, h.carried.bytes⟩, h.direct⟩
    intro policy hp
    obtain ⟨old, hold, rfl⟩ := Option.map_eq_some_iff.1 hp
    rcases old.publish_spec plan seed with ⟨e, he⟩ | ⟨next, hnext, hplan, -⟩
    · rw [he]
      exact h.carried.offered old hold
    · rw [hnext]
      exact hplan ▸ hd

omit [AsyncWrite τ] [AsyncRead τ] in
theorem Started.intact {s : BidirectionalRun τ} (h : Started s)
    (hplan : ∀ policy, s.stream.downstreamPolicy = some policy → policy.snapshot.plan.delays) :
    s.stream.Intact s.delivered := by
  have hempty := h.1
  obtain ⟨io, up, down, proxy, key, c, c', hi, ho, hp, hu, hd, hpol⟩ := h.engines
  have hfaithful := DirectionEngine.compile_faithful (hplan down hpol)
    ⟨down.snapshot.seedNamespace, proxy, key, .downstream⟩ (show TerminationHandle.new.get = none from rfl) c'.now
  refine ⟨⟨?_, ?_⟩, ⟨?_, hplan, ?_⟩, fun _ => ⟨ho, hp⟩⟩
  · rw [hu]; exact DirectionEngine.compile_healthy _ _ _ _
  · rw [hd]; exact DirectionEngine.compile_healthy _ _ _ _
  · rw [hd]; exact hfaithful
  · rw [hempty, ho, hp, hd, hi]
    rfl

/-- Under downstream plans that only delay, in every run whose polls strand
nothing: what reads have delivered is a prefix of what was read from the
transport, a read that reports the end of the stream finds all of it delivered,
and every read returns, within three turns of its loop. -/
theorem delivery_in_order {s : BidirectionalRun τ} (h : Started s)
    (hplan : ∀ policy, s.stream.downstreamPolicy = some policy → policy.snapshot.plan.delays) {ops : List Op}
    (hpub : ∀ op ∈ ops, op.delays) (hops : Along step Unstranding s ops) :
    let r := run step s ops
    r.delivered <+: r.stream.inner.read ∧
      (∀ cap fuel stream clock, 0 < cap → ¬ r.stream.Strands r.clock →
        r.stream.pollRead fuel r.clock cap = some (.ready (.ok []), stream, clock) →
        r.delivered = stream.inner.read) ∧
      ∀ cap fuel, 3 ≤ fuel → ¬ r.stream.Strands r.clock → (r.stream.pollRead fuel r.clock cap).isSome := by
  have hintact := run_inv_along (fun r : BidirectionalRun τ => r.stream.Intact r.delivered)
    (fun _ op hr hop => step_intact hr hop.1 hop.2) (h.intact hplan) (hops.and_forall hpub)
  refine ⟨?_, ?_, ?_⟩
  · have hb := hintact.carried.bytes
    rw [List.append_assoc, List.append_assoc] at hb
    exact ⟨_, hb⟩
  · intro cap fuel stream clock hcap hs hr
    exact (BidirectionalChaosStream.pollRead_intact hintact hs hr).2 hcap rfl
  · intro cap fuel hfuel hs
    exact BidirectionalChaosStream.pollRead_returns hintact hs hfuel cap

/-- A stream without upstream faults and with a millisecond of downstream latency,
over a transport that is read `[1]`, then `[2]`, then at its end. -/
def slowRead (k : Nat) : BidirectionalRun Script :=
  start { reads := [.ready (.ok [1]), .ready (.ok [2])] } (.new .empty 0 FaultPlan.validate_empty)
    (.new StreamRun.slowPlan 0 StreamRun.slowPlan_valid) "proxy" 1 (.jump k 2000000)

theorem slowRead_delays (k : Nat) (policy : LivePolicy) (h : (slowRead k).stream.downstreamPolicy = some policy) :
    policy.snapshot.plan.delays := by
  cases h
  decide

/-- The plan is replaced by another latency while a byte is queued, and by the
empty one when nothing is. -/
theorem delivery_in_order_swapped :
    let r := run step (slowRead 8) [.read 8 9, .publishDownstream StreamRun.slowPlan 1, .read 8 9, .flush, .read 8 9,
      .publishDownstream .empty 0, .read 8 9]
    r.delivered <+: r.stream.inner.read :=
  (delivery_in_order (start_started _ _ _ _ _ _) (slowRead_delays 8) (by decide) (by decide)).1

/-- The empty plan is installed when the first byte is due: it stays behind in the
output, and the second byte is delivered in its place. -/
theorem empty_plan_strands :
    ¬ ∀ (s : BidirectionalRun Script), Started s →
        (∀ policy, s.stream.downstreamPolicy = some policy → policy.snapshot.plan.delays) →
        ∀ ops : List Op, (∀ op ∈ ops, op.delays) →
          (run step s ops).delivered <+: (run step s ops).stream.inner.read := by
  intro h
  have := h (slowRead 8) (start_started _ _ _ _ _ _) (slowRead_delays 8)
    [.read 8 9, .publishDownstream .empty 0, .read 8 9] (by decide)
  exact absurd this (by decide)

end BidirectionalRun

end Eggchaos
