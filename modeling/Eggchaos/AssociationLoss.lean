import Eggchaos.AssociationEvidence
/-!
# Datagrams of an association

Where the datagrams of an association go. A datagram that the channel took is
admitted, or it still waits when the worker leaves its loop; then the final count
has to put it into `administrative_discards`. And the reaper may only remove an
association that owns none.

Both can go wrong between two accesses of different tasks. `Exposed` names those
steps; without one of them every datagram is accounted for (`no_invisible_loss`).
-/

namespace Eggchaos
open Lib

/-! ## Admissions are counted -/

namespace DatagramDirectionEngine

theorem bandwidthDelay_evidence (e : DatagramDirectionEngine) (id : String) (now bytes rate burst : Nat) :
    (e.bandwidthDelay id now bytes rate burst).2.evidence = e.evidence := by
  obtain ⟨buckets, hb⟩ := bandwidthDelay_spec e id now bytes rate burst
  rw [hb]

theorem apply_admitted (e : DatagramDirectionEngine) (now : Nat) (fault : DatagramFaultSpec) (rng : DeterministicRng)
    (nextCopy : Nat) (c : Staged) :
    (e.apply now fault rng nextCopy c).2.1.evidence.admittedDatagrams = e.evidence.admittedDatagrams := by
  have hdelayed : ∀ ev kind added, (DatagramEvidence.noteDelayed ev kind added).admittedDatagrams = ev.admittedDatagrams :=
    fun ev kind added => (noteDelayed_same ev kind added).1.admitted
  generalize hk : fault.kind = kind
  cases kind with
  | payloadCorrupt count =>
    simp only [apply, hk]
    split <;> rfl
  | bandwidth rate burst =>
    simp only [apply, hk, hdelayed, bandwidthDelay_evidence]
    rfl
  | loss | duplicate copies | delay delay jitter | reorder hold =>
    simp only [apply, hk, hdelayed]
    rfl

theorem runStage_admitted (now : Nat) (policy : PublishedDatagramPolicy) (ordinal stage : Nat)
    (fault : DatagramFaultSpec) (cs : List Staged) (e : DatagramDirectionEngine) (nextCopy : Nat) :
    (runStage now policy ordinal stage fault e nextCopy cs).2.1.evidence.admittedDatagrams =
      e.evidence.admittedDatagrams := by
  induction cs generalizing e nextCopy with
  | nil => rfl
  | cons c cs ih =>
    have hone : (e.runCandidate now policy ordinal stage fault nextCopy c).2.1.evidence.admittedDatagrams =
        e.evidence.admittedDatagrams := by
      simp only [runCandidate]
      split
      · exact apply_admitted e now fault _ nextCopy c
      · rfl
    simp only [runStage, ih, hone]

theorem runStages_admitted (now : Nat) (policy : PublishedDatagramPolicy) (ordinal : Nat)
    (faults : List DatagramFaultSpec) (stage : Nat) (e : DatagramDirectionEngine) (nextCopy : Nat) (cs : List Staged) :
    (runStages now policy ordinal stage faults e nextCopy cs).2.evidence.admittedDatagrams =
      e.evidence.admittedDatagrams := by
  induction faults generalizing stage e nextCopy cs with
  | nil => rfl
  | cons fault faults ih => simp only [runStages, ih, runStage_admitted]

theorem settle_admitted (e : DatagramDirectionEngine) (now ordinal generation : Nat) (cs : List Staged) :
    (e.settle now ordinal generation cs).2.evidence.admittedDatagrams = e.evidence.admittedDatagrams := by
  have hemit : ∀ (cs : List Staged) (e : DatagramDirectionEngine),
      (emitAll ordinal generation e cs).2.evidence.admittedDatagrams = e.evidence.admittedDatagrams := by
    intro cs
    induction cs with
    | nil => exact fun _ => rfl
    | cons c cs ih => exact fun e => ih _
  have hqueue : ∀ (cs : List Staged) (e : DatagramDirectionEngine),
      (queueAll now ordinal generation e cs).2.evidence.admittedDatagrams = e.evidence.admittedDatagrams := by
    intro cs
    induction cs with
    | nil => exact fun _ => rfl
    | cons c cs ih =>
      intro e
      simp only [queueAll]
      split
      · exact ih _
      · exact ih _
  simp only [settle]
  split
  · exact hemit cs e
  · exact hqueue cs e

/-- Whatever becomes of a datagram, its admission is counted. -/
theorem admitDatagram_admitted (e : DatagramDirectionEngine) (now : Nat) (payload : List Byte)
    (policy : PublishedDatagramPolicy) :
    (e.admitDatagram now payload policy).2.evidence.admittedDatagrams = satAdd e.evidence.admittedDatagrams 1 := by
  have hadopt : ((e.count payload).adopt policy).evidence.admittedDatagrams = satAdd e.evidence.admittedDatagrams 1 := by
    simp only [adopt]
    split <;> rfl
  simp only [admitDatagram]
  split
  · rfl
  · split
    · split
      · exact hadopt
      · split <;> exact hadopt
    · simp only [settle_admitted, candidates, runStages_admitted]
      exact hadopt

theorem takeReady_admitted (e : DatagramDirectionEngine) (now : Nat) :
    (e.takeReady now).2.evidence.admittedDatagrams = e.evidence.admittedDatagrams := by
  have hdrain : ∀ (queue : List Candidate) (ev : DatagramEvidence),
      (drain now queue ev).2.2.admittedDatagrams = ev.admittedDatagrams := by
    intro queue
    induction queue with
    | nil => exact fun _ => rfl
    | cons c cs ih =>
      intro ev
      simp only [drain]
      split
      · exact ih _
      · rfl
  exact hdrain e.queue e.evidence

end DatagramDirectionEngine

/-! ## The worker's moves -/

namespace WorkerPhase

/-- The worker has left its loop. -/
def Out : WorkerPhase → Prop
  | .broken | .counted _ _ | .recorded | .ended => True
  | _ => False

/-- The record is final. -/
def Final : WorkerPhase → Prop
  | .recorded | .ended => True
  | _ => False

/-- The worker has taken a datagram and not admitted it yet. -/
def Holding : WorkerPhase → Prop
  | .taken _ | .admitting _ | .arrived (some _) => True
  | _ => False

/-- Datagrams the worker has taken and not uncounted yet. -/
def inHand : WorkerPhase → Nat
  | .taken _ => 1
  | _ => 0

/-- A turn that sends leaves the loop or waits, and keeps nothing in hand. -/
theorem turned {p next : WorkerPhase} {cancelled : Prop} (h : (p = .broken ∧ cancelled) ∨ p = next)
    (hn : next = .parked ∨ next = .noting) :
    p.inHand = 0 ∧ ¬ p.Final ∧ ¬ p.Holding ∧ ∀ queued waiting, p ≠ .counted queued waiting := by
  rcases h with ⟨rfl, -⟩ | rfl
  · simp [inHand, Final, Holding]
  · rcases hn with rfl | rfl <;> simp [inHand, Final, Holding]

end WorkerPhase

namespace AssociationState

/-- What a step of the worker can do. -/
inductive WorkerMove (s : AssociationState) : AssociationOp → AssociationState → Prop where
  | stay (op : AssociationOp) : WorkerMove s op s
  | emitted (now : Nat) (io : TurnIo) (s' : AssociationState) (hp : s.phase = .top) (sends : s.Sends s')
      (admitted : s'.admitted = s.admitted) (upstream : s'.upstream = (s.upstream.takeReady now).2)
      (downstream : s'.downstream = s.downstream ∨ s'.downstream = (s.downstream.takeReady now).2)
      (phase : (s'.phase = .broken ∧ s.cancelled = true) ∨ s'.phase = .parked) : WorkerMove s (.emit now io) s'
  | stopped (hp : s.phase = .parked) (hc : s.cancelled = true) : WorkerMove s (.wake .cancelled) { s with phase := .broken }
  | took (item : Ingress) (rest : List Ingress) (hp : s.phase = .parked) (hc : s.channel = item :: rest) :
      WorkerMove s (.wake .ingress) { s with channel := rest, phase := .taken item }
  | arrived (datagram : Option (List Byte)) (hp : s.phase = .parked) :
      WorkerMove s (.wake (.received datagram)) { s with phase := .arrived datagram }
  | expired (now : Nat) (hp : s.phase = .parked) : WorkerMove s (.wake (.deadline now)) { s with phase := .bottom }
  | retired (item : Ingress) (hp : s.phase = .taken item) :
      WorkerMove s .retire { s with pendingIngress := s.pendingIngress - 1, phase := .admitting item }
  | admittedUpstream (now : Nat) (policy : PublishedDatagramPolicy) (io : TurnIo) (item : Ingress) (s' : AssociationState)
      (hp : s.phase = .admitting item) (sends : s.Sends s')
      (upstream : s'.upstream = (s.upstream.admitDatagram now item.payload item.policy).2)
      (admitted : s'.admitted = s.admitted ++ [item])
      (phase : (s'.phase = .broken ∧ s.cancelled = true) ∨ s'.phase = .noting) : WorkerMove s (.admission now policy io) s'
  | admittedDownstream (now : Nat) (policy : PublishedDatagramPolicy) (io : TurnIo) (payload : List Byte)
      (s' : AssociationState) (hp : s.phase = .arrived (some payload)) (sends : s.Sends s')
      (upstream : s'.upstream = s.upstream) (admitted : s'.admitted = s.admitted)
      (phase : (s'.phase = .broken ∧ s.cancelled = true) ∨ s'.phase = .noting) : WorkerMove s (.admission now policy io) s'
  | failed (op : AssociationOp) (datagram : Option (List Byte)) (record : AssociationRecord)
      (hp : s.phase = .arrived datagram)
      (hr : record.administrativeDiscards = s.record.administrativeDiscards) :
      WorkerMove s op { s with dirty := true, phase := .bottom, record }
  | noted (now : Nat) (hp : s.phase = .noting) :
      WorkerMove s (.note now) { s with dirty := true, phase := .bottom, record := { s.record with lastActivity := now } }
  | updated (record : AssociationRecord) (hp : s.phase = .bottom)
      (hr : record.administrativeDiscards = s.record.administrativeDiscards) :
      WorkerMove s .update { s with phase := .top, record }
  | counted (hp : s.phase = .broken) : WorkerMove s .count s.count
  | closed (queued : Nat) (waiting : List Ingress) (hp : s.phase = .counted queued waiting) :
      WorkerMove s .close (s.close queued waiting)
  | finished (hp : s.phase = .recorded) :
      WorkerMove s .finish { s with receiverOpen := false, channel := [], phase := .ended }

theorem SeesToken.cancelled {s : AssociationState} {io : SendIo} {n : Nat} (h : s.SeesToken io n) : s.cancelled = true := h.1

theorem step_worker (s : AssociationState) {op : AssociationOp} (h : OfWorker op) : s.WorkerMove op (s.step op) := by
  cases op with
  | emit now io =>
    simp only [step]
    split
    · next hp =>
      obtain ⟨hsends, ha, hu, hout⟩ := emitReady_spec s now io
      rcases hout with ⟨hp', hseen, hd⟩ | ⟨hp', -, hd, -⟩
      · have hc : s.cancelled = true := hseen.elim (·.cancelled) (·.cancelled)
        exact .emitted now io _ hp hsends ha hu hd (.inl ⟨hp', hc⟩)
      · exact .emitted now io _ hp hsends ha hu (.inr hd) (.inr hp')
    · exact .stay _
  | wake event =>
    simp only [step]
    split
    · next hp =>
      cases event with
      | cancelled =>
        simp only [wake]
        split
        · next hc => exact .stopped hp hc
        · exact .stay _
      | ingress =>
        simp only [wake]
        split
        · next item rest hc => exact .took item rest hp hc
        · exact .stay _
      | received datagram => exact .arrived datagram hp
      | deadline now =>
        simp only [wake]
        split
        · split
          · exact .expired now hp
          · exact .stay _
        · exact .stay _
    · exact .stay _
  | retire =>
    simp only [step]
    split
    · next item hp => exact .retired item hp
    · exact .stay _
  | admission now policy io =>
    simp only [step, admission]
    split
    · next item hp =>
      obtain ⟨hsends, hu, -, ha, hout⟩ := admittedUpstream_spec s item now io
      exact .admittedUpstream now policy io item _ hp hsends hu ha hout
    · next payload hp =>
      split
      · exact .failed _ _ _ hp rfl
      · obtain ⟨hsends, -, hu, ha, hout⟩ := admittedDownstream_spec s payload now policy io
        exact .admittedDownstream now policy io payload _ hp hsends hu ha hout
    · next hp => exact .failed _ _ _ hp rfl
    · exact .stay _
  | note now =>
    simp only [step]
    split
    · next hp => exact .noted now hp
    · exact .stay _
  | update =>
    simp only [step]
    split
    · next hp => exact .updated _ hp (by split <;> rfl)
    · exact .stay _
  | count =>
    simp only [step]
    split
    · next hp => exact .counted hp
    · exact .stay _
  | close =>
    simp only [step]
    split
    · next queued waiting hp => exact .closed queued waiting hp
    · exact .stay _
  | finish =>
    simp only [step]
    split
    · next hp => exact .finished hp
    · exact .stay _
  | _ => exact absurd h (by exact id)

/-! ## Stopping -/

/-- The registry's side of the state. -/
structure SameRegistry (s s' : AssociationState) : Prop where
  slot : s'.slot = s.slot
  stop : s'.stop = s.stop
  cancelled : s'.cancelled = s.cancelled
  administrativeCancel : s'.administrativeCancel = s.administrativeCancel
  reapers : s'.reapers = s.reapers

/-- The clients' side of the state. -/
structure SameClients (s s' : AssociationState) : Prop where
  resolved : s'.resolved = s.resolved
  announced : s'.announced = s.announced
  refused : s'.refused = s.refused
  accepted : s'.accepted = s.accepted

theorem Sends.sameRegistry {s s' : AssociationState} (h : s.Sends s') : s.SameRegistry s' := by
  constructor <;> rw [h.frame]

theorem Sends.sameClients {s s' : AssociationState} (h : s.Sends s') : s.SameClients s' := by
  constructor <;> rw [h.frame]

theorem WorkerMove.sides {s s' : AssociationState} {op : AssociationOp} (h : s.WorkerMove op s') :
    s.SameRegistry s' ∧ s.SameClients s' := by
  cases h with
  | emitted _ _ _ _ sends | admittedUpstream _ _ _ _ _ _ sends | admittedDownstream _ _ _ _ _ _ sends =>
    exact ⟨sends.sameRegistry, sends.sameClients⟩
  | closed queued waiting hp =>
    simp only [close]
    split <;> exact ⟨⟨rfl, rfl, rfl, rfl, rfl⟩, ⟨rfl, rfl, rfl, rfl⟩⟩
  | _ => exact ⟨⟨rfl, rfl, rfl, rfl, rfl⟩, ⟨rfl, rfl, rfl, rfl⟩⟩

/-- The steps of `receive_client_datagram`. -/
def OfClient : AssociationOp → Prop
  | .receive _ _ | .announce _ _ _ _ | .trySend _ | .noteSent _ _ | .retract _ | .noteRefused _ _ => True
  | _ => False

theorem step_client (s : AssociationState) {op : AssociationOp} (h : OfClient op) : s.SameRegistry (s.step op) := by
  cases op with
  | receive payload now =>
    simp only [step, receive]
    split
    · split <;> exact ⟨rfl, rfl, rfl, rfl, rfl⟩
    · exact ⟨rfl, rfl, rfl, rfl, rfl⟩
  | announce i policy granted now =>
    simp only [step, announce]
    split
    · split <;> exact ⟨rfl, rfl, rfl, rfl, rfl⟩
    · exact ⟨rfl, rfl, rfl, rfl, rfl⟩
  | trySend i =>
    simp only [step, trySend]
    split
    · split
      · exact ⟨rfl, rfl, rfl, rfl, rfl⟩
      · split <;> exact ⟨rfl, rfl, rfl, rfl, rfl⟩
    · exact ⟨rfl, rfl, rfl, rfl, rfl⟩
  | noteSent i now | retract i =>
    simp only [step, noteSent, retract]
    split <;> exact ⟨rfl, rfl, rfl, rfl, rfl⟩
  | noteRefused i now =>
    simp only [step, noteRefused]
    split
    · split <;> exact ⟨rfl, rfl, rfl, rfl, rfl⟩
    · exact ⟨rfl, rfl, rfl, rfl, rfl⟩
  | _ => exact absurd h (by exact id)

/-- A live slot's association is not being stopped, a removed one is stopped with
the administrative mark set first, and only a cancelled worker leaves its loop. -/
structure Stops (s : AssociationState) : Prop where
  live : s.slot = .starting ∨ s.slot = .active → s.cancelled = false ∧ s.stop = none
  early : s.slot = .starting → s.reapers = 0
  marking : ∀ administrative, s.stop = some (.marking administrative) → s.slot = .removed → administrative = true
  marked : s.stop = some .cancelling ∨ s.cancelled = true → s.slot = .removed → s.administrativeCancel = true
  out : s.phase.Out → s.cancelled = true

section

variable {s s' : AssociationState} {op : AssociationOp}

theorem Stops.same (h : s.Stops) (hr : s.SameRegistry s') (ho : s'.phase.Out → s.cancelled = true) : s'.Stops := by
  obtain ⟨hslot, hstop, hcancelled, hmark, hreapers⟩ := hr
  refine ⟨?_, ?_, ?_, ?_, ?_⟩
  · rw [hslot, hcancelled, hstop]; exact h.live
  · rw [hslot, hreapers]; exact h.early
  · rw [hslot, hstop]; exact h.marking
  · rw [hslot, hstop, hcancelled, hmark]; exact h.marked
  · rw [hcancelled]; exact ho

theorem WorkerMove.out (hm : s.WorkerMove op s') (h : s.Stops) (ho : s'.phase.Out) : s.cancelled = true := by
  cases hm with
  | stay => exact h.out ho
  | emitted _ _ _ _ _ _ _ _ phase | admittedUpstream _ _ _ _ _ _ _ _ _ phase
  | admittedDownstream _ _ _ _ _ _ _ _ _ phase =>
    rcases phase with ⟨-, hc⟩ | hp
    · exact hc
    · rw [hp] at ho
      cases ho
  | stopped hp hc => exact hc
  | counted hp | finished hp | closed _ _ hp => exact h.out (by rw [hp]; trivial)
  | _ => cases ho

theorem Stops.worker (h : s.Stops) (hm : s.WorkerMove op s') : s'.Stops := h.same hm.sides.1 (hm.out h)

theorem step_stops (s : AssociationState) (op : AssociationOp) (h : s.Stops) : (s.step op).Stops := by
  cases op with
  | publish kept =>
    simp only [step]
    split
    · next hs =>
      obtain ⟨hc, hstop⟩ := h.live (.inl hs)
      split
      · exact ⟨fun _ => ⟨hc, hstop⟩, by simp, by simp, by simp, h.out⟩
      · exact ⟨by simp, by simp, by simp, by simp, h.out⟩
    · exact h
  | check now idleTimeout =>
    simp only [step]
    split
    · next hs => exact ⟨h.live, fun h' => (by rw [hs.1] at h'; cases h'), h.marking, h.marked, h.out⟩
    · exact h
  | reap =>
    simp only [step, takeSlot]
    split
    · next hpos =>
      split
      · exact ⟨by simp, by simp, by simp, by simp, h.out⟩
      · exact ⟨h.live, fun h' => (by have := h.early h'; omega), h.marking, h.marked, h.out⟩
    · exact h
  | remove =>
    simp only [step, takeSlot]
    split
    · next hs =>
      obtain ⟨hc, -⟩ := h.live (.inr hs)
      refine ⟨by simp, by simp, ?_, ?_, h.out⟩
      · intro administrative ha _
        cases ha
        rfl
      · rintro (hstop | hcancel)
        · cases hstop
        · rw [hc] at hcancel
          cases hcancel
    · exact h
  | mark =>
    simp only [step]
    split
    · next administrative hstop =>
      refine ⟨fun hl => ?_, h.early, by simp, ?_, h.out⟩
      · rw [(h.live hl).2] at hstop
        cases hstop
      · intro _ hs
        rw [h.marking _ hstop hs]
        exact Bool.or_true _
    · exact h
  | cancel =>
    simp only [step]
    split
    · next hstop =>
      refine ⟨fun hl => ?_, h.early, by simp, fun _ => h.marked (.inl hstop), fun _ => rfl⟩
      rw [(h.live hl).2] at hstop
      cases hstop
    · exact h
  | receive | announce | trySend | noteSent | retract | noteRefused =>
    exact h.same (step_client s trivial) (by rw [(step_sameWorker (by exact id)).phase]; exact h.out)
  | emit | wake | retire | admission | note | update | count | close | finish =>
    exact h.worker (step_worker s trivial)

/-! ## Counters -/

/-- The counters of the association cover what they count. -/
structure Counts (s : AssociationState) : Prop where
  pending : s.channel.length + s.phase.inHand + s.announced.length + s.refused.length ≤ s.pendingIngress
  unpublished : s.slot = .starting ∨ s.slot = .drained → s.resolved = [] ∧ s.announced = [] ∧ s.accepted = []
  admitted : s.upstream.evidence.admittedDatagrams = clampU64 s.admitted.length
  final : s.phase.Final → s.record.upstreamEvidence.admittedDatagrams = clampU64 s.admitted.length
  undecided : ¬ s.phase.Final → s.discarded = []
  booked : s.Booked s.discarded.length
  closed : s.receiverOpen = false ↔ s.phase = .ended

/-- A move that leaves the record open. -/
theorem Counts.open_ (h : s.Counts) (hr : s.SameRegistry s') (hc : s.SameClients s') (hfin : ¬ s.phase.Final)
    (hfin' : ¬ s'.phase.Final)
    (hpending : s'.channel.length + s'.phase.inHand + s.announced.length + s.refused.length ≤ s'.pendingIngress)
    (hadmitted : s'.upstream.evidence.admittedDatagrams = clampU64 s'.admitted.length)
    (hdiscarded : s'.discarded = s.discarded) (hbooked : s'.Booked s.discarded.length)
    (hopen : s'.receiverOpen = s.receiverOpen) : s'.Counts where
  pending := by rw [hc.announced, hc.refused]; exact hpending
  unpublished := by rw [hr.slot, hc.resolved, hc.announced, hc.accepted]; exact h.unpublished
  admitted := hadmitted
  final hf := absurd hf hfin'
  undecided _ := hdiscarded.trans (h.undecided hfin)
  booked := by rw [hdiscarded]; exact hbooked
  closed := by
    have hended : ∀ phase : WorkerPhase, ¬ phase.Final → phase ≠ .ended := by
      rintro phase hf rfl
      exact hf trivial
    rw [hopen]
    exact ⟨fun hclosed => absurd (h.closed.1 hclosed) (hended _ hfin), fun he => absurd he (hended _ hfin')⟩

/-- A turn that sends, with the worker in its loop before it and after it. -/
theorem Counts.sent (h : s.Counts) (sends : s.Sends s') (hfin : ¬ s.phase.Final) (hhand : s'.phase.inHand = 0)
    (hfin' : ¬ s'.phase.Final) (hadmitted : s'.upstream.evidence.admittedDatagrams = clampU64 s'.admitted.length) :
    s'.Counts := by
  refine h.open_ sends.sameRegistry sends.sameClients hfin hfin' ?_ hadmitted (by rw [sends.frame])
    (sends.books _ h.booked) (by rw [sends.frame])
  have hpending := h.pending
  rw [hhand, sends.frame]
  simp only
  omega

theorem Counts.worker (h : s.Counts) (hm : s.WorkerMove op s') : s'.Counts := by
  obtain ⟨hr, hc⟩ := hm.sides
  have hpending := h.pending
  cases hm with
  | stay => exact h
  | emitted now io _ hp sends ha hu hd phase =>
    obtain ⟨hhand, hfin, -⟩ := WorkerPhase.turned phase (.inl rfl)
    refine h.sent sends (by rw [hp]; exact id) hhand hfin ?_
    rw [hu, DatagramDirectionEngine.takeReady_admitted, ha]
    exact h.admitted
  | admittedUpstream now policy io item _ hp sends hu ha phase =>
    obtain ⟨hhand, hfin, -⟩ := WorkerPhase.turned phase (.inr rfl)
    refine h.sent sends (by rw [hp]; exact id) hhand hfin ?_
    rw [hu, DatagramDirectionEngine.admitDatagram_admitted, ha, satAdd_shows h.admitted, List.length_append]
    rfl
  | admittedDownstream now policy io payload _ hp sends hu ha phase =>
    obtain ⟨hhand, hfin, -⟩ := WorkerPhase.turned phase (.inr rfl)
    refine h.sent sends (by rw [hp]; exact id) hhand hfin ?_
    rw [hu, ha]
    exact h.admitted
  | took item rest hp hchan =>
    rw [hp, hchan, List.length_cons] at hpending
    exact h.open_ hr hc (by rw [hp]; exact id) id (by simpa [WorkerPhase.inHand] using hpending) h.admitted rfl
      h.booked rfl
  | retired item hp =>
    rw [hp] at hpending
    simp only [WorkerPhase.inHand] at hpending
    exact h.open_ hr hc (by rw [hp]; exact id) id (by simp only [WorkerPhase.inHand]; omega) h.admitted rfl h.booked rfl
  | stopped hp | arrived datagram hp | expired now hp | noted now hp | counted hp =>
    rw [hp] at hpending
    exact h.open_ hr hc (by rw [hp]; exact id) id hpending h.admitted rfl h.booked rfl
  | failed _ datagram record hp hrec =>
    rw [hp] at hpending
    exact h.open_ hr hc (by rw [hp]; exact id) id hpending h.admitted rfl (hrec.trans h.booked) rfl
  | updated record hp hrec =>
    rw [hp] at hpending
    exact h.open_ hr hc (by rw [hp]; exact id) id hpending h.admitted rfl (hrec.trans h.booked) rfl
  | closed queued waiting hp =>
    have hnone := h.undecided (by rw [hp]; exact id)
    have hbooked := h.booked
    have hopen : s.receiverOpen ≠ false := fun hclosed => by
      rw [h.closed.1 hclosed] at hp
      cases hp
    rw [hp] at hpending
    rw [hnone] at hbooked
    simp only [close]
    split
    · refine ⟨hpending, h.unpublished, h.admitted, fun _ => h.admitted, fun hf => absurd trivial hf, ?_, ?_⟩
      · change satAdd s.record.administrativeDiscards (queued + waiting.length) =
          clampU64 (waiting.length + (s.otherDiscards + queued))
        rw [satAdd_shows hbooked]
        congr 1
        simp only [List.length_nil]
        omega
      · exact ⟨fun hclosed => absurd hclosed hopen, fun he => by cases he⟩
    · refine ⟨hpending, h.unpublished, h.admitted, fun _ => h.admitted, fun hf => absurd trivial hf, h.booked, ?_⟩
      exact ⟨fun hclosed => absurd hclosed hopen, fun he => by cases he⟩
  | finished hp =>
    refine ⟨?_, h.unpublished, h.admitted, fun _ => h.final (by rw [hp]; trivial), fun hf => absurd trivial hf, h.booked,
      fun _ => rfl, fun _ => rfl⟩
    simp only [WorkerPhase.inHand, List.length_nil]
    omega

/-- A move of another task. -/
theorem Counts.beside (h : s.Counts) (hw : s.SameWorker s') (hopen : s'.receiverOpen = s.receiverOpen)
    (hpending : s'.channel.length + s.phase.inHand + s'.announced.length + s'.refused.length ≤ s'.pendingIngress)
    (hunpublished : s'.slot = .starting ∨ s'.slot = .drained → s'.resolved = [] ∧ s'.announced = [] ∧ s'.accepted = [])
    (hbooked : s'.Booked s.discarded.length) : s'.Counts where
  pending := by rw [hw.phase]; exact hpending
  unpublished := hunpublished
  admitted := by rw [hw.upstream, hw.admitted]; exact h.admitted
  final := by rw [hw.phase, hw.upstreamEvidence, hw.admitted]; exact h.final
  undecided := by rw [hw.phase, hw.discarded]; exact h.undecided
  booked := by rw [hw.discarded]; exact hbooked
  closed := by rw [hw.phase, hopen]; exact h.closed

theorem length_eraseIdx_some {α : Type} {l : List α} {i : Nat} {x : α} (h : l[i]? = some x) :
    (l.eraseIdx i).length + 1 = l.length := by
  obtain ⟨hi, -⟩ := List.getElem?_eq_some_iff.1 h
  rw [List.length_eraseIdx_of_lt hi]
  omega

/-- A slot without calls has none to go on with. -/
theorem Counts.published (h : s.Counts) {α : Type} {l : List α} {i : Nat} {x : α} (hl : l[i]? = some x)
    (hcall : s.resolved = [] ∧ s.announced = [] ∧ s.accepted = [] → l = []) :
    ¬ (s.slot = .starting ∨ s.slot = .drained) := by
  intro hs
  rw [hcall (h.unpublished hs)] at hl
  cases hl

theorem step_counts (s : AssociationState) (op : AssociationOp) (h : s.Counts) : (s.step op).Counts := by
  have hpending := h.pending
  cases op with
  | emit | wake | retire | admission | note | update | count | close | finish => exact h.worker (step_worker s trivial)
  | publish kept =>
    simp only [step]
    split
    · next hs =>
      split <;> exact h.beside ⟨rfl, rfl, rfl, rfl, rfl, rfl, rfl, rfl⟩ rfl hpending (fun _ => h.unpublished (.inl hs)) h.booked
    · exact h
  | receive payload now =>
    simp only [step, receive]
    split
    · next hs =>
      split
      · exact h.beside ⟨rfl, rfl, rfl, rfl, rfl, rfl, rfl, rfl⟩ rfl hpending h.unpublished h.booked
      · refine h.beside ⟨rfl, rfl, rfl, rfl, rfl, rfl, rfl, rfl⟩ rfl hpending ?_ h.booked
        simp [hs]
    · exact h
  | announce i policy granted now =>
    simp only [step, announce]
    split
    · next payload hcall =>
      have hs := h.published hcall (·.1)
      split
      · refine h.beside ⟨rfl, rfl, rfl, rfl, rfl, rfl, rfl, rfl⟩ rfl ?_ (fun h' => absurd h' hs) h.booked
        simp only [List.length_append, List.length_singleton]
        omega
      · exact h.beside ⟨rfl, rfl, rfl, rfl, rfl, rfl, rfl, rfl⟩ rfl hpending (fun h' => absurd h' hs) h.booked
    · exact h
  | trySend i =>
    simp only [step, trySend]
    split
    · next item hcall =>
      have hs := h.published hcall (·.2.1)
      have hlen := length_eraseIdx_some hcall
      split
      · refine h.beside ⟨rfl, rfl, rfl, rfl, rfl, rfl, rfl, rfl⟩ rfl ?_ (fun h' => absurd h' hs) h.booked
        simp only [List.length_append, List.length_singleton]
        omega
      · split
        · refine h.beside ⟨rfl, rfl, rfl, rfl, rfl, rfl, rfl, rfl⟩ rfl ?_ (fun h' => absurd h' hs) h.booked
          simp only [List.length_append, List.length_singleton]
          omega
        · refine h.beside ⟨rfl, rfl, rfl, rfl, rfl, rfl, rfl, rfl⟩ rfl ?_ (fun h' => absurd h' hs) h.booked
          simp only [List.length_append, List.length_singleton]
          omega
    · exact h
  | noteSent i now =>
    simp only [step, noteSent]
    split
    · exact h.beside ⟨rfl, rfl, rfl, rfl, rfl, rfl, rfl, rfl⟩ rfl hpending h.unpublished h.booked
    · exact h
  | retract i =>
    simp only [step, retract]
    split
    · next closed hcall =>
      have hlen := length_eraseIdx_some hcall
      refine h.beside ⟨rfl, rfl, rfl, rfl, rfl, rfl, rfl, rfl⟩ rfl ?_ h.unpublished h.booked
      simp only
      omega
    · exact h
  | noteRefused i now =>
    simp only [step, noteRefused]
    split
    · split
      · refine h.beside ⟨rfl, rfl, rfl, rfl, rfl, rfl, rfl, rfl⟩ rfl hpending h.unpublished ?_
        exact (satAdd_shows h.booked 1).trans (by rw [Nat.add_assoc])
      · exact h.beside ⟨rfl, rfl, rfl, rfl, rfl, rfl, rfl, rfl⟩ rfl hpending h.unpublished h.booked
    · exact h
  | check now idleTimeout =>
    simp only [step]
    split
    · exact h.beside ⟨rfl, rfl, rfl, rfl, rfl, rfl, rfl, rfl⟩ rfl hpending h.unpublished h.booked
    · exact h
  | reap =>
    simp only [step, takeSlot]
    split
    · split
      · exact h.beside ⟨rfl, rfl, rfl, rfl, rfl, rfl, rfl, rfl⟩ rfl hpending (by rintro (h' | h') <;> cases h') h.booked
      · exact h.beside ⟨rfl, rfl, rfl, rfl, rfl, rfl, rfl, rfl⟩ rfl hpending h.unpublished h.booked
    · exact h
  | remove =>
    simp only [step, takeSlot]
    split
    · exact h.beside ⟨rfl, rfl, rfl, rfl, rfl, rfl, rfl, rfl⟩ rfl hpending (by rintro (h' | h') <;> cases h') h.booked
    · exact h
  | mark | cancel =>
    simp only [step]
    split
    · exact h.beside ⟨rfl, rfl, rfl, rfl, rfl, rfl, rfl, rfl⟩ rfl hpending h.unpublished h.booked
    · exact h

/-! ## Every datagram has a place -/

/-- The datagrams the channel took and the engine did not get yet: before the
final count those in hand and in the channel, then those it counted. -/
def inside (s : AssociationState) : List Ingress :=
  match s.phase with
  | .taken item | .admitting item => item :: s.channel
  | .counted _ waiting => waiting
  | .recorded | .ended => s.discarded
  | _ => s.channel

/-- The association owns a datagram. -/
def Owns (s : AssociationState) : Prop :=
  s.channel ≠ [] ∨ s.phase.Holding ∨ s.upstream.queue ≠ [] ∨ s.downstream.queue ≠ []

/-- The worker has taken a datagram, and the record does not show it yet. -/
def Midway (s : AssociationState) : Prop :=
  match s.phase with
  | .admitting _ | .arrived (some _) | .noting => True
  | .bottom => s.dirty = true
  | _ => False

/-- `try_send` of this call succeeds. -/
def Delivers (s : AssociationState) (i : Nat) : Prop :=
  i < s.announced.length ∧ s.receiverOpen = true ∧ s.channel.length < s.capacity

/-- The worker has taken its final count. -/
def PastCount (s : AssociationState) : Prop :=
  match s.phase with
  | .counted _ _ | .recorded => True
  | _ => False

/-- A reaper has found the association expired, and will remove it or has. -/
def Doomed (s : AssociationState) : Prop := s.slot = .active ∧ 0 < s.reapers

/-- The steps that slip between two accesses of another task: a reaper looks while
the worker is midway, or a datagram comes after a reaper has looked or after the
worker has counted. -/
def Exposed (s : AssociationState) : AssociationOp → Prop
  | .check now idleTimeout => s.slot = .active ∧ s.record.expired s.pendingIngress now idleTimeout = true ∧ s.Midway
  | .trySend i => s.Delivers i ∧ (s.Doomed ∨ s.slot = .reaped ∨ s.PastCount)
  | .wake (.received (some _)) => s.phase = .parked ∧ s.Doomed
  | _ => False

/-- What holds along a run without an exposed step. -/
structure Placed (s : AssociationState) : Prop where
  idle : s.Doomed → ¬ s.Owns
  reaped : s.slot = .reaped → s.channel = []
  books : s.accepted = s.admitted ++ s.inside
  counted : ∀ queued waiting, s.phase = .counted queued waiting → s.channel = waiting

theorem SameRegistry.doomed (hr : s.SameRegistry s') : s'.Doomed ↔ s.Doomed := by
  simp only [Doomed, hr.slot, hr.reapers]

/-- A move of the worker that takes no datagram. -/
theorem Placed.move (h : s.Placed) (hr : s.SameRegistry s') (hc : s.SameClients s') (hadmitted : s'.admitted = s.admitted)
    (hchannel : s'.channel = s.channel) (hinside : s'.inside = s.inside) (howns : s'.Owns → s.Owns)
    (hcounted : ∀ queued waiting, s'.phase = .counted queued waiting → s.channel = waiting) : s'.Placed where
  idle hd ho := h.idle (hr.doomed.1 hd) (howns ho)
  reaped hs := by rw [hchannel]; exact h.reaped (hr.slot ▸ hs)
  books := by rw [hc.accepted, hadmitted, hinside]; exact h.books
  counted queued waiting hp := by rw [hchannel]; exact hcounted queued waiting hp

/-- A turn of a worker that holds a datagram. -/
theorem Placed.admits (h : s.Placed) (sends : s.Sends s') (howns : s.Owns)
    (hcounted : ∀ queued waiting, s'.phase ≠ .counted queued waiting)
    (hbooks : s'.admitted ++ s'.inside = s.admitted ++ s.inside) : s'.Placed where
  idle hd := absurd howns (h.idle (sends.sameRegistry.doomed.1 hd))
  reaped := by rw [sends.frame]; exact h.reaped
  books := by rw [sends.sameClients.accepted, h.books, hbooks]
  counted queued waiting hp := absurd hp (hcounted queued waiting)

/-- After a turn that sends nothing is in hand. -/
theorem inside_turned {next : WorkerPhase} {cancelled : Prop} (hp : (s.phase = .broken ∧ cancelled) ∨ s.phase = next)
    (hn : next = .parked ∨ next = .noting) : s.inside = s.channel := by
  rcases hp with ⟨hp, -⟩ | hp
  · simp only [inside, hp]
  · rcases hn with rfl | rfl <;> simp only [inside, hp]

theorem takeReady_nil {e : DatagramDirectionEngine} (now : Nat) (h : (e.takeReady now).2.queue ≠ []) : e.queue ≠ [] := by
  have hlen := (e.takeReady_length now).2
  rw [← List.length_pos_iff] at h ⊢
  omega

/-- The worker's own books when the count is closed: without the administrative
mark nothing waited. -/
theorem close_waiting (h : s.Placed) (hst : s.Stops) (hcn : s.Counts) {queued : Nat} {waiting : List Ingress}
    (hp : s.phase = .counted queued waiting) (hmark : s.administrativeCancel = false) : waiting = [] := by
  have hchannel := h.counted queued waiting hp
  have hc : s.cancelled = true := hst.out (by rw [hp]; trivial)
  cases hslot : s.slot with
  | starting =>
    rw [(hst.live (.inl hslot)).1] at hc
    cases hc
  | active =>
    rw [(hst.live (.inr hslot)).1] at hc
    cases hc
  | drained =>
    have hbooks := h.books
    simp only [(hcn.unpublished (.inr hslot)).2.2, inside, hp] at hbooks
    exact (List.append_eq_nil_iff.1 hbooks.symm).2
  | reaped => rw [← hchannel, h.reaped hslot]
  | removed =>
    rw [hst.marked (.inr hc) hslot] at hmark
    cases hmark

theorem Placed.worker (h : s.Placed) (hst : s.Stops) (hcn : s.Counts) (hm : s.WorkerMove op s') (hx : ¬ s.Exposed op) :
    s'.Placed := by
  obtain ⟨hr, hc⟩ := hm.sides
  cases hm with
  | stay => exact h
  | emitted now io _ hp sends ha hu hd phase =>
    obtain ⟨-, -, hholding, hcounted⟩ := WorkerPhase.turned phase (.inl rfl)
    have hchannel : s'.channel = s.channel := by rw [sends.frame]
    have hinside : s'.inside = s.inside := by
      rw [inside_turned phase (.inl rfl), hchannel]
      simp only [inside, hp]
    refine h.move hr hc ha hchannel hinside ?_ fun queued waiting hp' => absurd hp' (hcounted queued waiting)
    rintro (ho | ho | ho | ho)
    · exact .inl (hchannel ▸ ho)
    · exact absurd ho hholding
    · exact .inr (.inr (.inl (takeReady_nil now (hu ▸ ho))))
    · rcases hd with hd | hd
      · exact .inr (.inr (.inr (hd ▸ ho)))
      · exact .inr (.inr (.inr (takeReady_nil now (hd ▸ ho))))
  | stopped hp _ | expired now hp =>
    exact h.move hr hc rfl rfl (by simp only [inside, hp]) (Or.imp_right (Or.imp_left False.elim))
      fun _ _ hp' => by cases hp'
  | noted now hp =>
    exact h.move hr hc rfl rfl (by simp only [inside, hp]) (Or.imp_right (Or.imp_left False.elim))
      fun _ _ hp' => by cases hp'
  | updated record hp _ =>
    exact h.move hr hc rfl rfl (by simp only [inside, hp]) (Or.imp_right (Or.imp_left False.elim))
      fun _ _ hp' => by cases hp'
  | failed _ datagram record hp _ =>
    exact h.move hr hc rfl rfl (by simp only [inside, hp]) (Or.imp_right (Or.imp_left False.elim))
      fun _ _ hp' => by cases hp'
  | retired item hp =>
    refine h.move hr hc rfl rfl (by simp only [inside, hp]) (Or.imp_right (Or.imp_left fun _ => ?_))
      fun _ _ hp' => by cases hp'
    rw [hp]
    trivial
  | took item rest hp hchannel =>
    have howns : s.Owns := .inl (by rw [hchannel]; exact List.cons_ne_nil _ _)
    refine ⟨fun hd => absurd howns (h.idle hd), fun hs => ?_, ?_, fun _ _ hp' => by cases hp'⟩
    · have hnil := h.reaped hs
      rw [hchannel] at hnil
      cases hnil
    · have hbooks := h.books
      simp only [inside, hp, hchannel] at hbooks
      exact hbooks
  | arrived datagram hp =>
    cases datagram with
    | none =>
      exact h.move hr hc rfl rfl (by simp only [inside, hp]) (Or.imp_right (Or.imp_left False.elim))
        fun _ _ hp' => by cases hp'
    | some payload =>
      refine ⟨fun hd => absurd ⟨hp, hd⟩ hx, h.reaped, ?_, fun _ _ hp' => by cases hp'⟩
      have hbooks := h.books
      simp only [inside, hp] at hbooks
      exact hbooks
  | admittedUpstream now policy io item _ hp sends hu ha phase =>
    obtain ⟨-, -, -, hcounted⟩ := WorkerPhase.turned phase (.inr rfl)
    refine h.admits sends (.inr (.inl (by rw [hp]; trivial))) hcounted ?_
    rw [ha, inside_turned phase (.inr rfl), sends.frame]
    simp only [inside, hp, List.append_assoc, List.singleton_append]
  | admittedDownstream now policy io payload _ hp sends hu ha phase =>
    obtain ⟨-, -, -, hcounted⟩ := WorkerPhase.turned phase (.inr rfl)
    refine h.admits sends (.inr (.inl (by rw [hp]; trivial))) hcounted ?_
    rw [ha, inside_turned phase (.inr rfl), sends.frame]
    simp only [inside, hp]
  | counted hp =>
    refine h.move hr hc rfl rfl (by simp only [inside, count, hp]) ?_ ?_
    · rintro (ho | ho | ho | ho)
      · exact .inl ho
      · cases ho
      · exact absurd rfl ho
      · exact absurd rfl ho
    · intro queued waiting hp'
      cases hp'
      rfl
  | closed queued waiting hp =>
    have hbooks := h.books
    have hdoomed : ¬ s.Doomed := by
      rintro ⟨hactive, -⟩
      have hcancel := hst.out (by rw [hp]; trivial)
      rw [(hst.live (.inr hactive)).1] at hcancel
      cases hcancel
    refine ⟨fun hd => absurd (hr.doomed.1 hd) hdoomed, ?_, ?_, ?_⟩
    · rw [hr.slot]
      intro hs
      simp only [close]
      split <;> exact h.reaped hs
    · rw [hc.accepted, hbooks]
      simp only [inside, hp, close]
      cases hmark : s.administrativeCancel with
      | true => rfl
      | false =>
        rw [close_waiting h hst hcn hp hmark]
        simp only [Bool.false_eq_true, if_false, hcn.undecided (by rw [hp]; exact id)]
    · intro queued' waiting' hp'
      simp only [close] at hp'
      split at hp' <;> cases hp'
  | finished hp =>
    refine ⟨fun hd ho => h.idle hd ?_, fun _ => rfl, ?_, fun _ _ hp' => by cases hp'⟩
    · rcases ho with ho | ho | ho
      · exact absurd rfl ho
      · cases ho
      · exact .inr (.inr ho)
    · have hbooks := h.books
      simp only [inside, hp] at hbooks
      exact hbooks

theorem inside_same (hw : s.SameWorker s') (hchannel : s'.channel = s.channel) : s'.inside = s.inside := by
  simp only [inside, hw.phase, hchannel, hw.discarded]

theorem owns_same (hw : s.SameWorker s') (hchannel : s'.channel = s.channel) : s'.Owns ↔ s.Owns := by
  simp only [Owns, hw.phase, hchannel, hw.upstream, hw.downstream]

/-- A move of another task that leaves the channel alone. -/
theorem Placed.beside (h : s.Placed) (hw : s.SameWorker s') (hchannel : s'.channel = s.channel)
    (haccepted : s'.accepted = s.accepted) (hidle : s'.Doomed → ¬ s.Owns) (hreaped : s'.slot = .reaped → s.channel = []) :
    s'.Placed where
  idle hd ho := hidle hd ((owns_same hw hchannel).1 ho)
  reaped hs := by rw [hchannel]; exact hreaped hs
  books := by rw [haccepted, hw.admitted, inside_same hw hchannel]; exact h.books
  counted queued waiting hp := by rw [hchannel]; exact h.counted queued waiting (hw.phase ▸ hp)

theorem Placed.client (h : s.Placed) (hop : OfClient op) (hw : ¬ OfWorker op)
    (hchannel : (s.step op).channel = s.channel) (haccepted : (s.step op).accepted = s.accepted) : (s.step op).Placed := by
  have hr := step_client s hop
  exact h.beside (step_sameWorker hw) hchannel haccepted (fun hd => h.idle (hr.doomed.1 hd))
    fun hs => h.reaped (hr.slot ▸ hs)

/-- What the record shows at a wait is all there is. -/
theorem check_not_owns {limits : DatagramQueueLimits} (hst : s.Stops) (hcn : s.Counts) (hev : s.Evident limits)
    {now idleTimeout : Nat} (hs : s.slot = .active)
    (hexpired : s.record.expired s.pendingIngress now idleTimeout = true) (hmid : ¬ s.Midway) : ¬ s.Owns := by
  simp only [AssociationRecord.expired, Bool.and_eq_true, beq_iff_eq] at hexpired
  obtain ⟨⟨⟨hup, hdown⟩, hnone⟩, -⟩ := hexpired
  have hpending := hcn.pending
  have hchannel : s.channel = [] := List.eq_nil_of_length_eq_zero (by omega)
  have hin : ¬ s.phase.Out := by
    intro ho
    have hc := hst.out ho
    rw [(hst.live (.inr hs)).1] at hc
    cases hc
  -- Whoever is neither midway nor out of the loop shows its queues, or is counted as pending.
  have hshown : ¬ s.phase.Holding ∧ s.Shown := by
    cases hp : s.phase with
    | top => exact ⟨id, hev.shown_of_fresh (hev.top hp)⟩
    | parked => exact ⟨id, hev.shown (.inl hp)⟩
    | taken item =>
      rw [hp] at hpending
      simp only [WorkerPhase.inHand] at hpending
      omega
    | admitting item => exact absurd (by simp [Midway, hp]) hmid
    | arrived datagram =>
      cases datagram with
      | none => exact ⟨id, hev.shown (.inr hp)⟩
      | some payload => exact absurd (by simp [Midway, hp]) hmid
    | noting => exact absurd (by simp [Midway, hp]) hmid
    | bottom =>
      have hclean : s.dirty = false := by simpa [Midway, hp] using hmid
      exact ⟨id, hev.shown_of_fresh (hev.clean (.inr hp) hclean)⟩
    | broken | counted | recorded | ended => exact absurd (by rw [hp]; trivial) hin
  obtain ⟨hholding, hu, hd⟩ := hshown
  rw [hup] at hu
  rw [hdown] at hd
  rintro (ho | ho | ho | ho)
  · exact ho hchannel
  · exact hholding ho
  · exact ho (List.eq_nil_of_length_eq_zero (by omega))
  · exact ho (List.eq_nil_of_length_eq_zero (by omega))

theorem trySend_placed (h : s.Placed) (hcn : s.Counts) (i : Nat) (hx : ¬ s.Exposed (.trySend i)) :
    (s.step (.trySend i)).Placed := by
  have hw : s.SameWorker (s.step (.trySend i)) := step_sameWorker (by exact id)
  have hr : s.SameRegistry (s.step (.trySend i)) := step_client s trivial
  cases hcall : s.announced[i]? with
  | none =>
    have hstep : s.step (.trySend i) = s := by simp only [step, trySend, hcall]
    rw [hstep]
    exact h
  | some item =>
    obtain ⟨hi, -⟩ := List.getElem?_eq_some_iff.1 hcall
    by_cases hdelivers : s.Delivers i
    · have hopen := hdelivers.2.1
      have hroom : ¬ s.capacity ≤ s.channel.length := Nat.not_le.2 hdelivers.2.2
      have hchannel : (s.step (.trySend i)).channel = s.channel ++ [item] := by
        simp only [step, trySend, hcall, hopen, hroom, Bool.not_true, Bool.false_eq_true, if_false]
      have haccepted : (s.step (.trySend i)).accepted = s.accepted ++ [item] := by
        simp only [step, trySend, hcall, hopen, hroom, Bool.not_true, Bool.false_eq_true, if_false]
      have hsafe : ¬ s.Doomed ∧ s.slot ≠ .reaped ∧ ¬ s.PastCount := by
        simp only [Exposed, hdelivers, true_and, not_or] at hx
        exact hx
      have hinside : (s.step (.trySend i)).inside = s.inside ++ [item] := by
        simp only [inside, hw.phase, hchannel]
        cases hp : s.phase with
        | counted | recorded => exact absurd (by simp [PastCount, hp]) hsafe.2.2
        | ended =>
          rw [hcn.closed.2 hp] at hopen
          cases hopen
        | _ => rfl
      refine ⟨fun hd => absurd (hr.doomed.1 hd) hsafe.1, fun hs => absurd (hr.slot ▸ hs) hsafe.2.1, ?_, ?_⟩
      · rw [haccepted, hw.admitted, hinside, h.books, List.append_assoc]
      · intro queued waiting hp
        exact absurd (by simp [PastCount, ← hw.phase, hp]) hsafe.2.2
    · have hrefused : (s.step (.trySend i)).channel = s.channel ∧ (s.step (.trySend i)).accepted = s.accepted := by
        simp only [step, trySend, hcall]
        split
        · exact ⟨rfl, rfl⟩
        · next hopen =>
          split
          · exact ⟨rfl, rfl⟩
          · next hroom => exact absurd ⟨hi, by simpa using hopen, Nat.not_le.1 hroom⟩ hdelivers
      exact h.client trivial (by exact id) hrefused.1 hrefused.2

theorem step_placed {limits : DatagramQueueLimits} (h : s.Placed) (hst : s.Stops) (hcn : s.Counts) (hev : s.Evident limits)
    (hx : ¬ s.Exposed op) : (s.step op).Placed := by
  cases op with
  | emit | wake | retire | admission | note | update | count | close | finish =>
    exact h.worker hst hcn (step_worker s trivial) hx
  | publish kept =>
    simp only [step]
    split
    · next hs =>
      have hnone := hst.early hs
      split
      · exact h.beside ⟨rfl, rfl, rfl, rfl, rfl, rfl, rfl, rfl⟩ rfl rfl
          (fun hd => absurd hd.2 (by simp only [hnone]; omega)) fun hs' => by cases hs'
      · exact h.beside ⟨rfl, rfl, rfl, rfl, rfl, rfl, rfl, rfl⟩ rfl rfl (fun hd => by cases hd.1) fun hs' => by cases hs'
    · exact h
  | receive payload now =>
    refine h.client trivial (by exact id) ?_ ?_ <;> simp only [step, receive]
    · split
      · split <;> rfl
      · rfl
    · split
      · split <;> rfl
      · rfl
  | announce i policy granted now =>
    refine h.client trivial (by exact id) ?_ ?_ <;> simp only [step, announce]
    · split
      · split <;> rfl
      · rfl
    · split
      · split <;> rfl
      · rfl
  | trySend i => exact trySend_placed h hcn i hx
  | noteSent i now =>
    refine h.client trivial (by exact id) ?_ ?_ <;> simp only [step, noteSent] <;> split <;> rfl
  | retract i =>
    refine h.client trivial (by exact id) ?_ ?_ <;> simp only [step, retract] <;> split <;> rfl
  | noteRefused i now =>
    refine h.client trivial (by exact id) ?_ ?_ <;> simp only [step, noteRefused]
    · split
      · split <;> rfl
      · rfl
    · split
      · split <;> rfl
      · rfl
  | check now idleTimeout =>
    simp only [step]
    split
    · next hs =>
      have hnot : ¬ s.Owns := check_not_owns hst hcn hev hs.1 hs.2 fun hmid => hx ⟨hs.1, hs.2, hmid⟩
      exact h.beside ⟨rfl, rfl, rfl, rfl, rfl, rfl, rfl, rfl⟩ rfl rfl (fun _ => hnot) h.reaped
    · exact h
  | reap =>
    simp only [step, takeSlot]
    split
    · next hpos =>
      split
      · next hs =>
        have hchannel : s.channel = [] := by
          by_contra hne
          exact h.idle ⟨hs, hpos⟩ (.inl hne)
        exact h.beside ⟨rfl, rfl, rfl, rfl, rfl, rfl, rfl, rfl⟩ rfl rfl (fun hd => by cases hd.1) fun _ => hchannel
      · next hs =>
        exact h.beside ⟨rfl, rfl, rfl, rfl, rfl, rfl, rfl, rfl⟩ rfl rfl (fun hd => absurd hd.1 hs) h.reaped
    · exact h
  | remove =>
    simp only [step, takeSlot]
    split
    · exact h.beside ⟨rfl, rfl, rfl, rfl, rfl, rfl, rfl, rfl⟩ rfl rfl (fun hd => by cases hd.1) fun hs' => by cases hs'
    · exact h
  | mark | cancel =>
    simp only [step]
    split
    · exact h.beside ⟨rfl, rfl, rfl, rfl, rfl, rfl, rfl, rfl⟩ rfl rfl h.idle h.reaped
    · exact h

end

/-- Everything the channel took was admitted or discarded, and the counters of
the record show how many of each; `administrative_discards` shows other discards
too. -/
structure AllCounted (s : AssociationState) : Prop where
  each : s.accepted = s.admitted ++ s.discarded
  admitted : s.record.upstreamEvidence.admittedDatagrams = clampU64 s.admitted.length
  discarded : s.record.administrativeDiscards = clampU64 (s.discarded.length + s.otherDiscards)

theorem start_counts {limits : DatagramQueueLimits} {proxy : String} {association : UInt64}
    {upstream : DatagramDirectionEngine}
    (hu : DatagramDirectionEngine.new limits proxy association .upstream = .ok upstream)
    (downstream : DatagramDirectionEngine) (capacity now : Nat) : (start capacity upstream downstream now).Counts := by
  have hnew := DatagramDirectionEngine.new_evidence hu
  exact ⟨Nat.zero_le _, fun _ => ⟨rfl, rfl, rfl⟩, congrArg DatagramEvidence.admittedDatagrams hnew, False.elim, fun _ => rfl,
    rfl, by simp [start]⟩

theorem start_stops {capacity now : Nat} {upstream downstream : DatagramDirectionEngine} :
    (start capacity upstream downstream now).Stops :=
  ⟨fun _ => ⟨rfl, rfl⟩, fun _ => rfl, by simp [start], by simp [start], False.elim⟩

theorem start_placed {capacity now : Nat} {upstream downstream : DatagramDirectionEngine} :
    (start capacity upstream downstream now).Placed :=
  ⟨by simp [start, Doomed], by simp [start], rfl, by simp [start]⟩

theorem run_placed {limits : DatagramQueueLimits} {proxy : String} {association : UInt64}
    {upstream downstream : DatagramDirectionEngine}
    (hu : DatagramDirectionEngine.new limits proxy association .upstream = .ok upstream)
    (hd : DatagramDirectionEngine.new limits proxy association .downstream = .ok downstream) (capacity now : Nat)
    {ops : List AssociationOp}
    (h : Along step (fun s op => ¬ s.Exposed op) (start capacity upstream downstream now) ops) :
    (run step (start capacity upstream downstream now) ops).Counts ∧
      (run step (start capacity upstream downstream now) ops).Placed := by
  have hinv := @run_inv_along _ _ step (fun s op => ¬ s.Exposed op) (fun s => s.Evident limits ∧ s.Stops ∧ s.Counts ∧ s.Placed)
    (fun s op hi hok => ⟨step_evident s op hi.1, step_stops s op hi.2.1, step_counts s op hi.2.2.1,
      step_placed hi.2.2.2 hi.2.1 hi.2.2.1 hi.1 hok⟩) _
    ⟨start_evident hu hd capacity now, start_stops, start_counts hu downstream capacity now, start_placed⟩ _ h
  exact ⟨hinv.2.2.1, hinv.2.2.2⟩

/-- In a run without an exposed step no reaper removes an association that owns a
datagram, and once the worker has ended every datagram the channel took is
counted. -/
theorem no_invisible_loss (limits : DatagramQueueLimits) (proxy : String) (association : UInt64)
    (upstream downstream : DatagramDirectionEngine)
    (hu : DatagramDirectionEngine.new limits proxy association .upstream = .ok upstream)
    (hd : DatagramDirectionEngine.new limits proxy association .downstream = .ok downstream)
    (capacity now : Nat) (ops : List AssociationOp)
    (h : Along step (fun s op => ¬ s.Exposed op) (start capacity upstream downstream now) ops) :
    (∀ pre, pre ++ [.reap] <+: ops → (run step (start capacity upstream downstream now) pre).Doomed →
        ¬ (run step (start capacity upstream downstream now) pre).Owns) ∧
      (∀ pre, pre <+: ops → (run step (start capacity upstream downstream now) pre).phase = .ended →
        (run step (start capacity upstream downstream now) pre).AllCounted) := by
  constructor
  · rintro pre ⟨rest, rfl⟩
    rw [List.append_assoc, along_append] at h
    exact (run_placed hu hd capacity now h.1).2.idle
  · rintro pre ⟨rest, rfl⟩ hp
    rw [along_append] at h
    obtain ⟨hcn, hpl⟩ := run_placed hu hd capacity now h.1
    have hbooks := hpl.books
    simp only [inside, hp] at hbooks
    exact ⟨hbooks, hcn.final (by rw [hp]; trivial), hcn.booked⟩

instance (phase : WorkerPhase) : Decidable (phase = .parked) :=
  match phase with
  | .parked => .isTrue rfl
  | .top | .taken _ | .admitting _ | .arrived _ | .noting | .bottom | .broken | .counted _ _ | .recorded | .ended =>
    .isFalse nofun

instance (s : AssociationState) : Decidable s.Doomed := inferInstanceAs (Decidable (_ ∧ _))
instance (s : AssociationState) (i : Nat) : Decidable (s.Delivers i) := inferInstanceAs (Decidable (_ ∧ _))

instance (s : AssociationState) : Decidable s.Midway := by
  unfold Midway
  split <;> infer_instance

instance (s : AssociationState) : Decidable s.PastCount := by
  unfold PastCount
  split <;> infer_instance

instance (s : AssociationState) : (op : AssociationOp) → Decidable (s.Exposed op)
  | .check _ _ => inferInstanceAs (Decidable (s.slot = .active ∧ _ = true ∧ s.Midway))
  | .trySend i => inferInstanceAs (Decidable (s.Delivers i ∧ (s.Doomed ∨ s.slot = .reaped ∨ s.PastCount)))
  | .wake (.received (some _)) => inferInstanceAs (Decidable (s.phase = .parked ∧ s.Doomed))
  | .wake (.received none) | .wake .cancelled | .wake .ingress | .wake (.deadline _) | .publish _ | .receive _ _
  | .announce _ _ _ _ | .noteSent _ _ | .retract _ | .noteRefused _ _ | .emit _ _ | .retire | .admission _ _ _ | .note _
  | .update | .count | .close | .finish | .reap | .remove | .mark | .cancel => .isFalse id

/-- A datagram reaches the channel, and the association is killed before the
worker takes it. -/
def killedBefore : List AssociationOp :=
  [.publish true, .emit 0 calm, .receive [1, 2, 3] 0, .announce 0 passing true 0, .trySend 0, .noteSent 0 0, .remove, .mark,
    .cancel, .wake .cancelled, .count, .close, .finish]

theorem no_invisible_loss_killed :
    let s := run step (start 4 pairEngine pairDownstream 0) killedBefore
    s.AllCounted ∧ s.record.administrativeDiscards = 1 := by
  refine ⟨?_, by decide⟩
  exact (no_invisible_loss pairLimits "dns" 1 pairEngine pairDownstream rfl rfl 4 0 killedBefore (by decide)).2 _
    List.prefix_rfl rfl

/-- The kill comes while the client's call holds the association, and its send
comes after the worker's count. -/
def sentAfterCount : List AssociationOp :=
  [.publish true, .emit 0 calm, .receive [1, 2, 3] 0, .announce 0 passing true 0, .remove, .mark, .cancel,
    .wake .cancelled, .count, .trySend 0, .noteSent 0 0, .close, .finish]

/-- The datagram waits for a millisecond, and the reaper looks between the worker's
`fetch_sub` and its update of the record. -/
def reapedMidway : List AssociationOp :=
  [.publish true, .emit 0 calm, .receive [1, 2, 3] 0, .announce 0 delayedCopies true 0, .trySend 0, .noteSent 0 0,
    .wake .ingress, .retire, .check 1000000 1000000, .admission 1000000 delayedCopies calm]

/-- A datagram that the channel took is neither admitted nor discarded when the
worker has ended; and a reaper is about to remove an association with two queued
datagrams. -/
theorem datagrams_lost_unseen :
    (let s := run step (start 4 pairEngine pairDownstream 0) sentAfterCount
     s.phase = .ended ∧ s.accepted.length = 1 ∧ s.record.ingressDatagrams = 1 ∧
       s.record.upstreamEvidence.admittedDatagrams = 0 ∧ s.record.administrativeDiscards = 0 ∧ ¬ s.AllCounted) ∧
      (let s := run step (start 4 pairEngine pairDownstream 0) reapedMidway
       s.Doomed ∧ s.Owns ∧ (s.step .reap).slot = .reaped ∧ (s.step .reap).upstream.queue.length = 2) := by
  constructor
  · intro s
    refine ⟨rfl, by decide, by decide, by decide, by decide, ?_⟩
    intro hall
    have hlen : s.accepted.length = s.admitted.length + s.discarded.length := by rw [hall.each, List.length_append]
    revert hlen
    decide
  · intro s
    have hqueued : s.upstream.queue.length = 2 := by decide
    refine ⟨by decide, .inr (.inr (.inl ?_)), by decide, hqueued⟩
    intro hnil
    rw [hnil] at hqueued
    cases hqueued

end AssociationState

end Eggchaos
