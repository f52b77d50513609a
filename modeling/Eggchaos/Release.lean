import Eggchaos.Advance
import Eggchaos.Vectored
/-!
# No early release

A segment is handed to the inner writer by `poll_queue` only. `Handed` is one such
hand-over: the segment at the head, what the clock shows when the writer is
called, and the bytes that it takes. `handedLoop` lists those of one drive, turn by
turn beside `pollQueueLoop`, and `handedLoop_log` says that nothing else reaches
the writer in it.

The queue timer is reused for one head after the other. What makes that sound is
`ArmedTimer.Keeps`: the sleep in the timer fires no earlier than the deadline that
it was armed for, so a sleep that has fired for a head says that this head is due.
-/

namespace Eggchaos
open Lib

/-! ## Timers -/

namespace ArmedTimer

/-- The sleep fires no earlier than the deadline it is armed for. -/
def Keeps (timer : ArmedTimer) : Prop := ∀ fires key, timer.armed = some (fires, key) → key ≤ fires

theorem idle_keeps : idle.Keeps := by
  intro fires key h
  cases h

end ArmedTimer

theorem Lib.Clock.now_le_tick (c : Clock) : c.now ≤ c.tick.now := c.mono (Nat.zero_le 1)

namespace ArmedTimer

/-- The sleep that `poll` looks at is the one armed for this deadline. -/
theorem arm_spec {timer : ArmedTimer} (h : timer.Keeps) {c : Clock} {now : Nat} (hnow : now ≤ c.now) (deadline : Nat) :
    (timer.arm c now deadline).1.2 = deadline ∧ deadline ≤ (timer.arm c now deadline).1.1 := by
  have fresh : deadline ≤ c.now + (deadline - now) := by omega
  unfold arm
  split
  · next fires key hk =>
    split
    · next heq =>
      subst heq
      exact ⟨rfl, h fires key hk⟩
    · exact ⟨rfl, fresh⟩
  · exact ⟨rfl, fresh⟩

theorem poll_keeps {timer : ArmedTimer} (h : timer.Keeps) {c : Clock} {now : Nat} (hnow : now ≤ c.now)
    (deadline : Nat) : (timer.poll c now deadline).2.1.Keeps := by
  obtain ⟨hkey, hfires⟩ := timer.arm_spec h hnow deadline
  unfold poll
  generalize timer.arm c now deadline = armed at *
  obtain ⟨⟨fires, key⟩, c'⟩ := armed
  simp only at hkey hfires ⊢
  split
  · exact idle_keeps
  · intro fires' key' heq
    cases heq
    rw [hkey]
    exact hfires

/-- A sleep that is ready says that the deadline has come. -/
theorem poll_ready {timer : ArmedTimer} (h : timer.Keeps) {c : Clock} {now : Nat} (hnow : now ≤ c.now) {deadline : Nat}
    (hready : (timer.poll c now deadline).1.isPending = false) : deadline ≤ (timer.poll c now deadline).2.2.now := by
  obtain ⟨-, hfires⟩ := timer.arm_spec h hnow deadline
  unfold poll at hready ⊢
  generalize timer.arm c now deadline = armed at *
  obtain ⟨⟨fires, key⟩, c'⟩ := armed
  simp only at hfires hready ⊢
  split
  · next hle => exact (hfires.trans hle).trans c'.now_le_tick
  · next hlt =>
    rw [if_neg hlt] at hready
    cases hready

end ArmedTimer

/-! ## Hand-overs -/

/-- The segment at the head of the queue, what the clock shows when the writer is
called with it, and what the writer takes of it. -/
structure Handed where
  segment : Queued
  clock : Nat
  taken : List Byte
deriving DecidableEq, Repr

/-- Not before the segment's release. -/
def Handed.Due (h : Handed) : Prop := h.segment.release ≤ h.clock

namespace DirectionEngine
variable {τ : Type} [AsyncWrite τ]

/-- The hand-overs of `pollQueueLoop`, by the same turns. -/
def handedLoop : Nat → DirectionEngine → τ → Clock → List Handed
  | 0, _, _, _ => []
  | fuel + 1, e, inner, c =>
    match e.queue with
    | [] => []
    | front :: rest =>
      let now := c.now
      let c := c.tick
      let (held, timer, c) : Poll Unit × ArmedTimer × Clock :=
        if now < front.release then e.queueTimer.poll c now front.release else (.ready (), e.queueTimer, c)
      let e := { e with queueTimer := timer }
      if held.isPending then []
      else
        let handed : Handed := ⟨front, c.now, Lib.taken front.bytes (AsyncWrite.pollWrite inner front.bytes).1⟩
        match AsyncWrite.pollWrite inner front.bytes with
        | (.ready (.ok n), inner) =>
          if n = 0 ∨ front.bytes.length < n then [handed]
          else
            handed :: handedLoop fuel { e with
              evidence := { e.evidence with bytesForwarded := satAdd e.evidence.bytesForwarded n }
              buffered := e.buffered - n
              queue := if n = front.bytes.length then rest else ⟨front.bytes.drop n, front.release⟩ :: rest } inner c
        | (_, _) => [handed]

/-- The hand-overs of a drive. -/
def handed (e : DirectionEngine) (inner : τ) (c : Clock) : List Handed :=
  handedLoop (e.queuedBytes.length + 1) e inner c

/-- What reaches the writer in a drive is what it takes in the hand-overs. -/
theorem handedLoop_log [RecordsWrites τ] (fuel : Nat) (e : DirectionEngine) (inner : τ) (c : Clock) :
    RecordsWrites.log (pollQueueLoop fuel e inner c).2.2.1 =
      RecordsWrites.log inner ++ (handedLoop fuel e inner c).flatMap (·.taken) := by
  induction fuel generalizing e inner c with
  | zero => simp [pollQueueLoop, handedLoop]
  | succ fuel ih =>
    cases hq : e.queue with
    | nil => simp [pollQueueLoop, handedLoop, hq]
    | cons front rest =>
    simp only [pollQueueLoop, handedLoop, hq]
    generalize (if c.now < front.release then e.queueTimer.poll c.tick c.now front.release
      else (Poll.ready (), e.queueTimer, c.tick)) = held
    obtain ⟨held, timer, c'⟩ := held
    cases hready : held.isPending with
    | true => simp
    | false =>
    simp only [Bool.false_eq_true, if_false]
    have hlog := RecordsWrites.log_pollWrite inner front.bytes
    generalize AsyncWrite.pollWrite inner front.bytes = answer at *
    obtain ⟨outcome, inner'⟩ := answer
    simp only at hlog
    cases outcome with
    | ready answer =>
      cases answer with
      | ok n =>
        simp only
        by_cases hz : n = 0
        · simp [hz, hlog]
        · by_cases hlen : front.bytes.length < n
          · simp [hz, hlen, hlog]
          · simp only [hz, hlen, if_false, or_self, List.flatMap_cons]
            rw [ih, hlog, List.append_assoc]
      | error error => simp [hlog]
    | pending => simp [hlog]

/-- Every hand-over of a drive is due, and the timer is left as it should be. -/
theorem handedLoop_due (fuel : Nat) {e : DirectionEngine} (h : e.queueTimer.Keeps) (inner : τ) (c : Clock) :
    (∀ handed ∈ handedLoop fuel e inner c, handed.Due) ∧ (pollQueueLoop fuel e inner c).2.1.queueTimer.Keeps := by
  induction fuel generalizing e inner c with
  | zero => exact ⟨by simp [handedLoop], h⟩
  | succ fuel ih =>
    cases hq : e.queue with
    | nil => simpa [pollQueueLoop, handedLoop, hq] using h
    | cons front rest =>
    simp only [pollQueueLoop, handedLoop, hq]
    -- past the timer, the head is due and the timer still keeps its deadline
    have hheld : let held := if c.now < front.release then e.queueTimer.poll c.tick c.now front.release
        else (Poll.ready (), e.queueTimer, c.tick)
        held.2.1.Keeps ∧ (held.1.isPending = false → front.release ≤ held.2.2.now) := by
      simp only
      split
      · exact ⟨ArmedTimer.poll_keeps h c.now_le_tick _, ArmedTimer.poll_ready h c.now_le_tick⟩
      · next hdue => exact ⟨h, fun _ => (Nat.le_of_not_lt hdue).trans c.now_le_tick⟩
    generalize (if c.now < front.release then e.queueTimer.poll c.tick c.now front.release
      else (Poll.ready (), e.queueTimer, c.tick)) = held at *
    obtain ⟨held, timer, c'⟩ := held
    obtain ⟨hkeeps, hdue⟩ := hheld
    simp only at hkeeps hdue ⊢
    cases hready : held.isPending with
    | true => simpa using hkeeps
    | false =>
    simp only [Bool.false_eq_true, if_false]
    have hfirst : ∀ taken, Handed.Due ⟨front, c'.now, taken⟩ := fun _ => hdue hready
    generalize AsyncWrite.pollWrite inner front.bytes = answer
    obtain ⟨outcome, inner'⟩ := answer
    cases outcome with
    | ready answer =>
      cases answer with
      | ok n =>
        simp only
        by_cases hz : n = 0
        · simpa [hz, hfirst] using hkeeps
        · by_cases hlen : front.bytes.length < n
          · simpa [hz, hlen, hfirst] using hkeeps
          · obtain ⟨hrest, htimer⟩ := ih (e := { e with
              queueTimer := timer
              evidence := { e.evidence with bytesForwarded := satAdd e.evidence.bytesForwarded n }
              buffered := e.buffered - n
              queue := if n = front.bytes.length then rest else ⟨front.bytes.drop n, front.release⟩ :: rest })
              hkeeps inner' c'
            simp only [hz, hlen, if_false, or_self]
            refine ⟨?_, htimer⟩
            intro handed hmem
            rcases List.mem_cons.1 hmem with rfl | hmem
            · exact hfirst _
            · exact hrest handed hmem
      | error error => simpa [hfirst] using hkeeps
    | pending => simpa [hfirst] using hkeeps

/-- A drive hands over only what is due. -/
theorem handed_due {e : DirectionEngine} (h : e.queueTimer.Keeps) (inner : τ) (c : Clock) :
    ∀ handed ∈ e.handed inner c, handed.Due :=
  (handedLoop_due _ h inner c).1

theorem pollQueue_keeps {e : DirectionEngine} (h : e.queueTimer.Keeps) (inner : τ) (c : Clock) :
    (e.pollQueue inner c).2.1.queueTimer.Keeps :=
  (handedLoop_due _ h inner c).2

theorem pollFlush_keeps {e : DirectionEngine} (h : e.queueTimer.Keeps) (inner : τ) (c : Clock) :
    (e.pollFlush inner c).2.1.queueTimer.Keeps := by
  have hq := e.pollQueue_keeps h inner c
  unfold pollFlush
  split
  · next hr =>
    rw [hr] at hq
    exact hq
  · exact hq

omit [AsyncWrite τ] in
/-- The slow close has a timer of its own. -/
theorem slowClose_queueTimer (e : DirectionEngine) (c : Clock) :
    (e.startSlowClose c).1.queueTimer = e.queueTimer ∧ (e.awaitSlowClose c).2.1.queueTimer = e.queueTimer := by
  constructor
  · simp only [startSlowClose]
    split
    · split
      · rfl
      · rfl
    · rfl
  · simp only [awaitSlowClose]
    split
    · rfl
    · split
      · rfl
      · rfl

theorem pollShutdown_keeps {e : DirectionEngine} (h : e.queueTimer.Keeps) (inner : τ) (c : Clock) :
    (e.pollShutdown inner c).2.1.queueTimer.Keeps := by
  have hq := e.pollQueue_keeps h inner c
  unfold pollShutdown
  split
  · next e' inner' c' hr =>
    rw [hr] at hq
    have hstart := (e'.slowClose_queueTimer c').1
    simp only
    generalize e'.startSlowClose c' = started at *
    have hwait := (started.1.slowClose_queueTimer started.2).2
    split
    · next hw =>
      rw [hw] at hwait
      rw [hwait, hstart]
      exact hq
    · next hw =>
      rw [hw] at hwait
      rw [hwait, hstart]
      exact hq
  · exact hq

/-- Flushing and shutting down hand over what the drive does. -/
theorem pollFlush_log [RecordsWrites τ] (e : DirectionEngine) (inner : τ) (c : Clock) :
    RecordsWrites.log (e.pollFlush inner c).2.2.1 =
      RecordsWrites.log inner ++ (e.handed inner c).flatMap (·.taken) := by
  have hq : RecordsWrites.log (e.pollQueue inner c).2.2.1 = _ := e.handedLoop_log _ inner c
  unfold pollFlush
  split
  · next e' inner' c' hr =>
    rw [hr] at hq
    exact (RecordsWrites.log_pollFlush inner').trans hq
  · exact hq

theorem pollShutdown_log [RecordsWrites τ] (e : DirectionEngine) (inner : τ) (c : Clock) :
    RecordsWrites.log (e.pollShutdown inner c).2.2.1 =
      RecordsWrites.log inner ++ (e.handed inner c).flatMap (·.taken) := by
  have hq : RecordsWrites.log (e.pollQueue inner c).2.2.1 = _ := e.handedLoop_log _ inner c
  unfold pollShutdown
  split
  · next e' inner' c' hr =>
    rw [hr] at hq
    simp only
    split
    · exact hq
    · exact (RecordsWrites.log_pollShutdown inner').trans hq
  · exact hq

end DirectionEngine

/-! ## Calls on a stream -/

namespace ChaosStream
variable {τ : Type} [AsyncWrite τ]

/-- The hand-overs of `update_live`: those of its barrier. -/
def handedUpdate (s : ChaosStream τ) (c : Clock) : List Handed :=
  match s.newerPolicy with
  | none => []
  | some _ => if s.engine.queueIsEmpty then [] else s.engine.handed s.inner c

/-- The hand-overs of a flush or a shutdown. -/
def handedDrive (s : ChaosStream τ) (c : Clock) : List Handed :=
  s.handedUpdate c ++ match s.updateLive c with
    | (.pending, _, _) => []
    | (.ready (), s, c) => s.engine.handed s.inner c

/-- The hand-overs behind an acceptance. -/
def handedAccept (s : ChaosStream τ) (c : Clock) (bytes : List Byte) : List Handed :=
  if bytes.isEmpty ∨ s.terminated then []
  else
    let (accepted, engine, c) := s.engine.accept c bytes
    if 0 < accepted then engine.handed s.inner c else []

/-- The hand-overs of a write: before the bytes are offered and, if some are taken,
once more behind them. -/
def handedWrite (s : ChaosStream τ) (c : Clock) (bytes : List Byte) : List Handed :=
  s.handedUpdate c ++ match s.updateLive c with
    | (.pending, _, _) => []
    | (.ready (), s, c) =>
      if s.engine.isEmpty then []
      else s.engine.handed s.inner c ++ match s.driveFlush c with
        | (.ready (.error _), _, _) => []
        | (_, s, c) => s.handedAccept c bytes

/-- What a write without a plan puts straight into the transport. -/
def directBytes (s : ChaosStream τ) (c : Clock) (bytes : List Byte) : List Byte :=
  match s.updateLive c with
  | (.pending, _, _) => []
  | (.ready (), s, _) => if s.engine.isEmpty then taken bytes (AsyncWrite.pollWrite s.inner bytes).1 else []

/-- The timer of the queue keeps its deadline. -/
def Timely (s : ChaosStream τ) : Prop := s.engine.queueTimer.Keeps

theorem handedUpdate_due {s : ChaosStream τ} (h : s.Timely) (c : Clock) : ∀ handed ∈ s.handedUpdate c, handed.Due := by
  unfold handedUpdate
  split
  · simp
  · split
    · simp
    · exact s.engine.handed_due h s.inner c

theorem updateLive_timely {s : ChaosStream τ} (h : s.Timely) (c : Clock) : (s.updateLive c).2.1.Timely := by
  unfold updateLive
  split
  · exact h
  · simp only
    split
    · unfold Timely DirectionEngine.barrier
      split
      · exact h
      · exact s.engine.pollFlush_keeps h s.inner c
    -- the engine of the next generation has a timer that was never armed
    · exact ArmedTimer.idle_keeps

theorem driveFlush_timely {s : ChaosStream τ} (h : s.Timely) (c : Clock) : (s.driveFlush c).2.1.Timely :=
  s.engine.pollFlush_keeps h s.inner c

omit [AsyncWrite τ] in
theorem accept_timely {s : ChaosStream τ} (h : s.Timely) (c : Clock) (bytes : List Byte) :
    Timely { s with engine := (s.engine.accept c bytes).2.1 } := by
  unfold Timely
  rw [(s.engine.accept_advances c bytes).queueTimer]
  exact h

theorem handedDrive_due {s : ChaosStream τ} (h : s.Timely) (c : Clock) : ∀ handed ∈ s.handedDrive c, handed.Due := by
  have hupdate := s.handedUpdate_due h c
  have hsettled := s.updateLive_timely h c
  unfold handedDrive
  intro handed hmem
  rcases List.mem_append.1 hmem with hmem | hmem
  · exact hupdate handed hmem
  · split at hmem
    · cases hmem
    · next s' c' hr =>
      rw [hr] at hsettled
      exact s'.engine.handed_due hsettled s'.inner c' handed hmem

theorem handedAccept_due {s : ChaosStream τ} (h : s.Timely) (c : Clock) (bytes : List Byte) :
    ∀ handed ∈ s.handedAccept c bytes, handed.Due := by
  have haccept := accept_timely h c bytes
  unfold handedAccept
  split
  · simp
  · simp only
    split
    · exact DirectionEngine.handed_due haccept s.inner _
    · simp

theorem handedWrite_due {s : ChaosStream τ} (h : s.Timely) (c : Clock) (bytes : List Byte) :
    ∀ handed ∈ s.handedWrite c bytes, handed.Due := by
  have hupdate := s.handedUpdate_due h c
  have hsettled := s.updateLive_timely h c
  unfold handedWrite
  intro handed hmem
  rcases List.mem_append.1 hmem with hmem | hmem
  · exact hupdate handed hmem
  split at hmem
  · cases hmem
  next s' c' hr =>
  rw [hr] at hsettled
  split at hmem
  · cases hmem
  rcases List.mem_append.1 hmem with hmem | hmem
  · exact s'.engine.handed_due hsettled s'.inner c' handed hmem
  · have hdriven := s'.driveFlush_timely hsettled c'
    split at hmem
    · cases hmem
    · next s'' c'' _ hr' =>
      rw [hr'] at hdriven
      exact s''.handedAccept_due hdriven c'' bytes handed hmem

theorem acceptWrite_timely {s : ChaosStream τ} (h : s.Timely) (c : Clock) (bytes : List Byte) :
    (s.acceptWrite c bytes).2.1.Timely := by
  have haccept := accept_timely h c bytes
  unfold acceptWrite
  simp only
  split
  · exact driveFlush_timely haccept _
  · split
    · exact haccept
    · exact haccept

theorem pollWrite_timely {s : ChaosStream τ} (h : s.Timely) (c : Clock) (bytes : List Byte) :
    (s.pollWrite c bytes).2.1.Timely := by
  have hsettled := s.updateLive_timely h c
  unfold pollWrite
  split
  · next hr =>
    rw [hr] at hsettled
    exact hsettled
  next s' c' hr =>
  rw [hr] at hsettled
  unfold settledWrite
  split
  · simp only [direct]
    split
    · exact hsettled
    · exact hsettled
  · have hdriven := s'.driveFlush_timely hsettled c'
    unfold engineWrite
    split
    · next hr' =>
      rw [hr'] at hdriven
      exact hdriven
    · next s'' c'' _ hr' =>
      rw [hr'] at hdriven
      unfold offer
      split
      · exact hdriven
      · split
        · exact hdriven
        · exact s''.acceptWrite_timely hdriven c'' bytes

/-! ## What reaches the transport -/

variable [RecordsWrites τ]

theorem updateLive_log (s : ChaosStream τ) (c : Clock) :
    RecordsWrites.log (s.updateLive c).2.1.inner =
      RecordsWrites.log s.inner ++ (s.handedUpdate c).flatMap (·.taken) := by
  unfold updateLive handedUpdate
  cases s.newerPolicy with
  | none => simp
  | some snapshot =>
    have hbarrier : RecordsWrites.log (s.engine.barrier s.inner c).2.2.1 = RecordsWrites.log s.inner ++
        (if s.engine.queueIsEmpty then [] else s.engine.handed s.inner c).flatMap (·.taken) := by
      unfold DirectionEngine.barrier
      split
      · simp
      · exact s.engine.pollFlush_log s.inner c
    simp only
    split
    · exact hbarrier
    · exact hbarrier

theorem driveFlush_log (s : ChaosStream τ) (c : Clock) :
    RecordsWrites.log (s.driveFlush c).2.1.inner =
      RecordsWrites.log s.inner ++ (s.engine.handed s.inner c).flatMap (·.taken) :=
  s.engine.pollFlush_log s.inner c

theorem offer_log (s : ChaosStream τ) (c : Clock) (bytes : List Byte) :
    RecordsWrites.log (s.offer c bytes).2.1.inner =
      RecordsWrites.log s.inner ++ (s.handedAccept c bytes).flatMap (·.taken) := by
  unfold offer handedAccept
  by_cases hnil : bytes.isEmpty
  · simp [hnil]
  by_cases hclosed : s.terminated
  · simp [hnil, hclosed]
  simp only [hnil, hclosed, Bool.false_eq_true, if_false, or_self, acceptWrite]
  generalize s.engine.accept c bytes = accepted
  obtain ⟨n, e, c'⟩ := accepted
  simp only
  split
  · exact driveFlush_log { s with engine := e } c'
  · split
    · simp
    · simp

theorem pollWrite_log (s : ChaosStream τ) (c : Clock) (bytes : List Byte) :
    RecordsWrites.log (s.pollWrite c bytes).2.1.inner =
      RecordsWrites.log s.inner ++ (s.handedWrite c bytes).flatMap (·.taken) ++ s.directBytes c bytes := by
  have hupdate := s.updateLive_log c
  unfold pollWrite handedWrite directBytes
  generalize s.updateLive c = updated at *
  obtain ⟨outcome, s', c'⟩ := updated
  cases outcome with
  | pending => simpa using hupdate
  | ready _ =>
    simp only [settledWrite] at hupdate ⊢
    split
    · next hempty =>
      have hwrite := RecordsWrites.log_pollWrite s'.inner bytes
      simp only [List.append_nil]
      rw [← hupdate, ← hwrite]
      unfold direct
      split
      · next hr => rw [hr]
      · next hr => rw [hr]
    · have hdrive := s'.driveFlush_log c'
      unfold engineWrite
      generalize s'.driveFlush c' = driven at *
      obtain ⟨outcome, s'', c''⟩ := driven
      simp only [List.append_nil, List.flatMap_append] at hdrive ⊢
      rw [← List.append_assoc, ← hupdate, ← List.append_assoc, ← hdrive]
      match outcome with
      | .ready (.error error) => simp [mirror]
      | .ready (.ok ()) => exact s''.offer_log c'' bytes
      | .pending => exact s''.offer_log c'' bytes

theorem pollFlush_log (s : ChaosStream τ) (c : Clock) :
    RecordsWrites.log (s.pollFlush c).2.1.inner =
      RecordsWrites.log s.inner ++ (s.handedDrive c).flatMap (·.taken) := by
  have hupdate := s.updateLive_log c
  unfold pollFlush handedDrive
  generalize s.updateLive c = updated at *
  obtain ⟨outcome, s', c'⟩ := updated
  cases outcome with
  | pending => simpa using hupdate
  | ready _ =>
    simp only [List.flatMap_append] at hupdate ⊢
    rw [← List.append_assoc, ← hupdate]
    exact s'.driveFlush_log c'

theorem pollShutdown_log (s : ChaosStream τ) (c : Clock) :
    RecordsWrites.log (s.pollShutdown c).2.1.inner =
      RecordsWrites.log s.inner ++ (s.handedDrive c).flatMap (·.taken) := by
  have hupdate := s.updateLive_log c
  unfold pollShutdown handedDrive
  generalize s.updateLive c = updated at *
  obtain ⟨outcome, s', c'⟩ := updated
  cases outcome with
  | pending => simpa using hupdate
  | ready _ =>
    simp only [List.flatMap_append] at hupdate ⊢
    rw [← List.append_assoc, ← hupdate]
    exact s'.engine.pollShutdown_log s'.inner c'

end ChaosStream

/-! ## Runs -/

namespace StreamRun
variable {τ : Type} [AsyncWrite τ]

/-- The calls that accept or release bytes, on the engine and on the stream around
it, and publications in between. -/
inductive Call where
  | accept (input : List Byte)
  | acceptVectored (bufs : List (List Byte))
  | pollFlush
  | pollShutdown
  | pollWrite (bytes : List Byte)
  | publish (plan : FaultPlan) (seedNamespace : UInt64)
deriving DecidableEq, Repr

def call (s : StreamRun τ) : Call → StreamRun τ
  | .accept input =>
    let (_, engine, clock) := s.stream.engine.accept s.clock input
    ⟨{ s.stream with engine }, clock⟩
  | .acceptVectored bufs =>
    let (_, engine, clock) := s.stream.engine.acceptVectored s.clock bufs
    ⟨{ s.stream with engine }, clock⟩
  | .pollFlush => let (_, stream, clock) := s.stream.pollFlush s.clock; ⟨stream, clock⟩
  | .pollShutdown => let (_, stream, clock) := s.stream.pollShutdown s.clock; ⟨stream, clock⟩
  | .pollWrite bytes => let (_, stream, clock) := s.stream.pollWrite s.clock bytes; ⟨stream, clock⟩
  | .publish plan seedNamespace => { s with stream := publish s.stream plan seedNamespace }

/-- The hand-overs of a call. -/
def handed (s : StreamRun τ) : Call → List Handed
  | .pollFlush | .pollShutdown => s.stream.handedDrive s.clock
  | .pollWrite bytes => s.stream.handedWrite s.clock bytes
  | .accept _ | .acceptVectored _ | .publish _ _ => []

/-- What a call writes past the queue. -/
def directBytes (s : StreamRun τ) : Call → List Byte
  | .pollWrite bytes => s.stream.directBytes s.clock bytes
  | .accept _ | .acceptVectored _ | .pollFlush | .pollShutdown | .publish _ _ => []

def handedAlong (s : StreamRun τ) : List Call → List Handed
  | [] => []
  | o :: calls => s.handed o ++ handedAlong (s.call o) calls

/-- All that the transport takes: in the hand-overs, and past the queue. -/
def takenAlong (s : StreamRun τ) : List Call → List Byte
  | [] => []
  | o :: calls => (s.handed o).flatMap (·.taken) ++ s.directBytes o ++ takenAlong (s.call o) calls

theorem call_timely {s : StreamRun τ} (h : s.stream.Timely) (o : Call) :
    (s.call o).stream.Timely ∧ ∀ handed ∈ s.handed o, handed.Due := by
  have hsettled := s.stream.updateLive_timely h s.clock
  cases o with
  | accept input => exact ⟨ChaosStream.accept_timely h s.clock input, by simp [handed]⟩
  | acceptVectored bufs =>
    obtain ⟨m, hm⟩ := s.stream.engine.acceptVectored_eq s.clock bufs
    refine ⟨?_, by simp [handed]⟩
    simp only [call, hm]
    exact ChaosStream.accept_timely h s.clock _
  | pollFlush =>
    refine ⟨?_, s.stream.handedDrive_due h s.clock⟩
    simp only [call, ChaosStream.pollFlush]
    split
    · next hr =>
      rw [hr] at hsettled
      exact hsettled
    · next s' c' hr =>
      rw [hr] at hsettled
      exact s'.driveFlush_timely hsettled c'
  | pollShutdown =>
    refine ⟨?_, s.stream.handedDrive_due h s.clock⟩
    simp only [call, ChaosStream.pollShutdown]
    split
    · next hr =>
      rw [hr] at hsettled
      exact hsettled
    · next s' c' hr =>
      rw [hr] at hsettled
      exact s'.engine.pollShutdown_keeps hsettled s'.inner c'
  | pollWrite bytes => exact ⟨s.stream.pollWrite_timely h s.clock bytes, s.stream.handedWrite_due h s.clock bytes⟩
  | publish plan seed => exact ⟨h, by simp [handed]⟩

theorem call_log (s : StreamRun τ) (o : Call) :
    (s.call o).stream.inner.written =
      s.stream.inner.written ++ (s.handed o).flatMap (·.taken) ++ s.directBytes o := by
  cases o with
  | accept input => simp [call, handed, directBytes]
  | acceptVectored bufs => simp [call, handed, directBytes]
  | publish plan seed => simp [call, handed, directBytes, publish]
  | pollWrite bytes => exact s.stream.pollWrite_log s.clock bytes
  | pollFlush =>
    rw [directBytes, List.append_nil]
    exact s.stream.pollFlush_log s.clock
  | pollShutdown =>
    rw [directBytes, List.append_nil]
    exact s.stream.pollShutdown_log s.clock

/-- The hand-overs of a run are all due, and nothing else leaves a queue. -/
theorem along_timely {s : StreamRun τ} (h : s.stream.Timely) (calls : List Call) :
    (∀ handed ∈ handedAlong s calls, handed.Due) ∧
      (run call s calls).stream.inner.written = s.stream.inner.written ++ takenAlong s calls := by
  induction calls generalizing s with
  | nil => simp [handedAlong, takenAlong]
  | cons o calls ih =>
    obtain ⟨htimely, hdue⟩ := call_timely h o
    obtain ⟨hrest, hlog⟩ := ih htimely
    constructor
    · intro handed hmem
      rcases List.mem_append.1 hmem with hmem | hmem
      · exact hdue handed hmem
      · exact hrest handed hmem
    · rw [run_cons, hlog, call_log]
      simp only [takenAlong, List.append_assoc]

omit [AsyncWrite τ] in
theorem Started.timely {s : StreamRun τ} (h : Started s) : s.stream.Timely := by
  rcases h.engine with ⟨plan, ident, now, he⟩ | ⟨c, he⟩
  · rw [ChaosStream.Timely, he]
    exact ArmedTimer.idle_keeps
  · rw [ChaosStream.Timely, he]
    exact ArmedTimer.idle_keeps

/-- No byte of a queued segment is handed to the transport before the segment's
release, in any run of a stream from its construction; what the transport has taken
it has taken in these hand-overs, or past the queue of an engine without a plan. -/
theorem no_early_release {s : StreamRun τ} (h : Started s) (calls : List Call) :
    (∀ handed ∈ handedAlong s calls, handed.segment.release ≤ handed.clock) ∧
      (run call s calls).stream.inner.written = s.stream.inner.written ++ takenAlong s calls :=
  along_timely h.timely calls

/-- One millisecond of latency: the first flush finds the byte held back, the second
hands it over. -/
theorem no_early_release_slow :
    let s := scripted { writes := [.ready (.ok 1)] } slowPlan rfl (.jump 6 2000000)
    let calls : List Call := [.pollWrite [7], .pollFlush, .pollFlush]
    (handedAlong s calls).map (fun handed => (handed.segment.release, handed.clock)) = [(1000000, 2000000)] ∧
      ∀ handed ∈ handedAlong s calls, handed.segment.release ≤ handed.clock :=
  ⟨by decide, (no_early_release (start_started _ _ _ _ _ _) _).1⟩

end StreamRun

end Eggchaos
