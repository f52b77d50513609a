import Eggchaos.Accept
/-!
# What the polls do

Flushing, shutting down, polling for a due termination and the refresh that
`accept` starts with are all a `Passed` step: bytes leave from the front of the
queue, and besides only timers, the termination and its evidence may move.
With `Accepted` this is all an engine ever does.
-/

namespace Eggchaos
open Lib

namespace DirectionEngine

/-- The bytes `out` left from the front; nothing was taken in. -/
structure Passed (e : DirectionEngine) (out : List Byte) (e' : DirectionEngine) : Prop where
  bytes : segmentBytes e.queue = out ++ segmentBytes e'.queue
  solid : Solid e.queue → Solid e'.queue
  buffered : e'.buffered = e.buffered - out.length
  forwarded : ∀ t, e.evidence.bytesForwarded = clampU64 t →
    e'.evidence.bytesForwarded = clampU64 (t + out.length)
  requested : e'.termination = e.termination ∨
    (e.termination = none ∧ ∃ info, e.DueInfo info ∧ e'.termination = some info)
  synced : e.Synced → e'.Synced
  frame : ∃ queueTimer termTimer shutdownTimer shutdownDeadline bytesForwarded request activations, e' = { e with
    queue := e'.queue, buffered := e'.buffered, termination := e'.termination, termHandle := e'.termHandle,
    queueTimer, termTimer, shutdownTimer, shutdownDeadline
    evidence := { e.evidence with bytesForwarded, termination := request, activations } }

theorem Passed.setup {e e' : DirectionEngine} {out : List Byte} (h : Passed e out e') : e'.setup = e.setup := by
  obtain ⟨_, _, _, _, _, _, _, hf⟩ := h.frame
  rw [hf]
  rfl

theorem Passed.plan {e e' : DirectionEngine} {out : List Byte} (h : Passed e out e') : e'.plan = e.plan :=
  congrArg Setup.plan h.setup

theorem Passed.maxBuffer {e e' : DirectionEngine} {out : List Byte} (h : Passed e out e') :
    e'.maxBuffer = e.maxBuffer :=
  congrArg Setup.maxBuffer h.setup

theorem Passed.limit {e e' : DirectionEngine} {out : List Byte} (h : Passed e out e') :
    e'.remainingLimit = e.remainingLimit := by
  obtain ⟨_, _, _, _, _, _, _, hf⟩ := h.frame
  rw [hf]

theorem Passed.limitAvailable {e e' : DirectionEngine} {out : List Byte} (h : Passed e out e') :
    e'.limitAvailable = e.limitAvailable := by
  rw [DirectionEngine.limitAvailable, DirectionEngine.limitAvailable, h.limit]

theorem Passed.lossAt {e e' : DirectionEngine} {out : List Byte} (h : Passed e out e') {ident : Identity} {k : Nat}
    (hl : LossAt ident k e) : LossAt ident k e' := by
  obtain ⟨_, _, _, _, _, _, _, hf⟩ := h.frame
  rw [hf]
  exact ⟨hl.states, hl.decided, hl.offset⟩

theorem DueInfo.of_setup {e e' : DirectionEngine} (h : e'.setup = e.setup) {info : TerminationInfo}
    (hd : e'.DueInfo info) : e.DueInfo info := by
  obtain ⟨hdir, hb, hdis⟩ : e'.direction = e.direction ∧ e'.blackhole = e.blackhole ∧ e'.disconnect = e.disconnect := by
    simp only [DirectionEngine.setup, Setup.mk.injEq] at h
    exact ⟨h.2.1, h.2.2.2.2.1, h.2.2.2.2.2⟩
  rcases hd with ⟨state, hs, rfl⟩ | ⟨deadline, id, hs, rfl⟩
  · exact .inl ⟨state, by rw [← hdis, hs], by simp [disconnectInfo, hdir]⟩
  · exact .inr ⟨deadline, id, by rw [← hb, hs], by simp [gracefulInfo, hdir]⟩

theorem Passed.trans {e e₁ e₂ : DirectionEngine} {o o' : List Byte} (h : Passed e o e₁) (h' : Passed e₁ o' e₂) :
    Passed e (o ++ o') e₂ := by
  refine ⟨by rw [h.bytes, h'.bytes, List.append_assoc], fun hs => h'.solid (h.solid hs), ?_, ?_, ?_,
    fun hs => h'.synced (h.synced hs), ?_⟩
  · rw [h'.buffered, h.buffered, List.length_append]; omega
  · intro t ht
    rw [h'.forwarded _ (h.forwarded t ht), List.length_append, Nat.add_assoc]
  · rcases h.requested with heq | ⟨hn, info, hi, ht⟩
    · rcases h'.requested with heq' | ⟨hn', info, hi, ht⟩
      · exact .inl (heq'.trans heq)
      · exact .inr ⟨heq ▸ hn', info, hi.of_setup h.setup, ht⟩
    · rcases h'.requested with heq' | ⟨hn', -⟩
      · exact .inr ⟨hn, info, hi, heq'.trans ht⟩
      · rw [ht] at hn'; cases hn'
  · obtain ⟨_, _, _, _, _, _, _, hf⟩ := h.frame
    obtain ⟨_, _, _, _, _, _, _, hf'⟩ := h'.frame
    exact ⟨_, _, _, _, _, _, _, hf'.trans (by rw [hf])⟩

/-- Moving timers, or counting an activation, passes nothing. -/
theorem Passed.idle {e e' : DirectionEngine} (hq : e'.queue = e.queue) (hb : e'.buffered = e.buffered)
    (ht : e'.termination = e.termination) (hh : e'.termHandle = e.termHandle)
    (hfw : e'.evidence.bytesForwarded = e.evidence.bytesForwarded)
    (hf : ∃ queueTimer termTimer shutdownTimer shutdownDeadline bytesForwarded request activations, e' = { e with
      queue := e'.queue, buffered := e'.buffered, termination := e'.termination, termHandle := e'.termHandle,
      queueTimer, termTimer, shutdownTimer, shutdownDeadline
      evidence := { e.evidence with bytesForwarded, termination := request, activations } }) : Passed e [] e' where
  bytes := by simp [hq]
  solid := by simp [hq]
  buffered := by simp [hb]
  forwarded t h := by simpa [hfw] using h
  requested := .inl ht
  synced h := by simpa [Synced, hh, ht] using h
  frame := hf

theorem Published.passed {e e' : DirectionEngine} (h : Published e e.DueInfo e') : Passed e [] e' := by
  have hreq := h.termination
  have hsync := h.synced
  rcases h with rfl | ⟨-, info, slot, -, rfl⟩
  · exact .idle rfl rfl rfl rfl rfl ⟨_, _, _, _, _, _, _, rfl⟩
  · obtain ⟨acts, he⟩ := e.publishCounting_eq info slot
    rw [he] at hreq hsync ⊢
    exact ⟨by simp, fun hs => hs, by simp, by simp, hreq, hsync, ⟨_, _, _, _, _, _, _, rfl⟩⟩

theorem refresh_passed (e : DirectionEngine) (c : Clock) : Passed e [] (e.refreshSyncTerminations c).1 :=
  (e.refresh_published c).passed

theorem refresh_of_recorded {e : DirectionEngine} (h : e.termination.isSome) (c : Clock) :
    e.refreshSyncTerminations c = (e, c) := by
  simp [refreshSyncTerminations, h]

theorem Drained.passed {e e' : DirectionEngine} {out : List Byte} (h : Drained e out e') : Passed e out e' := by
  obtain ⟨hb, hs, hbuf, hfw, ⟨timer, fw, hf⟩⟩ := h
  have ht : e'.termination = e.termination := by rw [hf]
  have hh : e'.termHandle = e.termHandle := by rw [hf]
  refine ⟨hb, hs, hbuf, hfw, .inl ht, fun h => by simpa [Synced, ht, hh] using h, ?_⟩
  rw [ht, hh]
  exact ⟨timer, _, _, _, fw, _, _, hf⟩

/-! ## Polling for a termination -/

theorem reportTermination_passed (e : DirectionEngine) (c : Clock) : Passed e [] (e.reportTermination c).2.1 := by
  have h := e.refresh_passed c
  simp only [reportTermination]
  split
  · exact h
  · exact h

theorem pollDueTermination_passed (e : DirectionEngine) (c : Clock) : Passed e [] (e.pollDueTermination c).2.1 := by
  have h := e.refresh_passed c
  simp only [pollDueTermination]
  generalize e.refreshSyncTerminations c = refreshed at *
  split
  · exact h
  split
  · exact h
  split
  · generalize refreshed.1.termTimer.poll refreshed.2.tick refreshed.2.now _ = polled
    have ht : Passed refreshed.1 [] { refreshed.1 with termTimer := polled.2.1 } :=
      .idle rfl rfl rfl rfl rfl ⟨_, _, _, _, _, _, _, rfl⟩
    split
    · exact h.trans ht
    · exact (h.trans ht).trans (reportTermination_passed _ _)
  · exact h.trans (reportTermination_passed _ _)

/-! ## Flushing and shutting down -/

section
variable {τ : Type} [AsyncWrite τ] [RecordsWrites τ]

theorem pollFlush_passed (e : DirectionEngine) (inner : τ) (c : Clock) :
    ∃ out, Passed e out (e.pollFlush inner c).2.1 ∧
      RecordsWrites.log (e.pollFlush inner c).2.2.1 = RecordsWrites.log inner ++ out := by
  obtain ⟨⟨out, hd, hlog⟩, -⟩ := e.pollQueue_driven inner c
  refine ⟨out, ?_⟩
  unfold pollFlush
  split
  · next e' inner' c' hq =>
    rw [hq] at hd hlog
    exact ⟨hd.passed, by rw [← hlog]; exact RecordsWrites.log_pollFlush inner'⟩
  · exact ⟨hd.passed, hlog⟩

theorem startSlowClose_passed (e : DirectionEngine) (c : Clock) : Passed e [] (e.startSlowClose c).1 := by
  simp only [startSlowClose]
  split
  · split
    · exact .idle rfl rfl rfl rfl rfl ⟨_, _, _, _, _, _, _, rfl⟩
    · exact .idle rfl rfl rfl rfl rfl ⟨_, _, _, _, _, _, _, rfl⟩
  · exact .idle rfl rfl rfl rfl rfl ⟨_, _, _, _, _, _, _, rfl⟩

theorem awaitSlowClose_passed (e : DirectionEngine) (c : Clock) : Passed e [] (e.awaitSlowClose c).2.1 := by
  simp only [awaitSlowClose]
  split
  · exact .idle rfl rfl rfl rfl rfl ⟨_, _, _, _, _, _, _, rfl⟩
  · split
    · exact .idle rfl rfl rfl rfl rfl ⟨_, _, _, _, _, _, _, rfl⟩
    · exact .idle rfl rfl rfl rfl rfl ⟨_, _, _, _, _, _, _, rfl⟩

theorem pollShutdown_passed (e : DirectionEngine) (inner : τ) (c : Clock) :
    ∃ out, Passed e out (e.pollShutdown inner c).2.1 ∧
      RecordsWrites.log (e.pollShutdown inner c).2.2.1 = RecordsWrites.log inner ++ out := by
  obtain ⟨⟨out, hd, hlog⟩, -⟩ := e.pollQueue_driven inner c
  refine ⟨out, ?_⟩
  unfold pollShutdown
  split
  · next e' inner' c' hq =>
    rw [hq] at hd hlog
    have hstart := e'.startSlowClose_passed c'
    simp only
    generalize e'.startSlowClose c' = started at *
    have hwait := started.1.awaitSlowClose_passed started.2
    have hall := (hd.passed.trans hstart).trans hwait
    simp only [List.append_nil] at hall
    split
    · next e'' c'' hw =>
      rw [hw] at hall
      exact ⟨hall, hlog⟩
    · next e'' c'' hw =>
      rw [hw] at hall
      exact ⟨hall, by rw [← hlog]; exact RecordsWrites.log_pollShutdown inner'⟩
  · exact ⟨hd.passed, hlog⟩

end

/-! ## What a drive does to the transport -/

section
variable {τ : Type} [AsyncWrite τ]

theorem pollQueueLoop_wrote {t : τ} (fuel : Nat) (e : DirectionEngine) {inner : τ} (c : Clock) (h : Wrote t inner) :
    Wrote t (pollQueueLoop fuel e inner c).2.2.1 := by
  induction fuel generalizing e inner c with
  | zero => exact h
  | succ fuel ih =>
    simp only [pollQueueLoop]
    split
    · exact h
    next front rest hq =>
    generalize (if c.now < front.release then e.queueTimer.poll c.tick c.now front.release
      else (Poll.ready (), e.queueTimer, c.tick)) = held
    split
    · exact h
    have hw := h.write front.bytes
    split
    · next hr =>
      rw [hr] at hw
      split
      · exact hw
      · split
        · exact hw
        · exact ih _ _ hw
    · next hr => rw [hr] at hw; exact hw
    · next hr => rw [hr] at hw; exact hw

theorem pollFlush_wrote (e : DirectionEngine) (inner : τ) (c : Clock) : Wrote inner (e.pollFlush inner c).2.2.1 := by
  have hq := pollQueueLoop_wrote (e.queuedBytes.length + 1) e c (.refl : Wrote inner inner)
  unfold pollFlush pollQueue
  split
  · next hr =>
    rw [hr] at hq
    exact hq.flush
  · exact hq

theorem pollShutdown_wrote (e : DirectionEngine) (inner : τ) (c : Clock) :
    Wrote inner (e.pollShutdown inner c).2.2.1 := by
  have hq := pollQueueLoop_wrote (e.queuedBytes.length + 1) e c (.refl : Wrote inner inner)
  unfold pollShutdown pollQueue
  split
  · next hr =>
    rw [hr] at hq
    simp only
    split
    · exact hq
    · exact hq.shutdown
  · exact hq

end

end DirectionEngine

end Eggchaos
