import Eggchaos.Lib.Fair
import Eggchaos.OutcomeRuns
import Eggchaos.ServiceStart
import Mathlib.Algebra.Group.Action.Defs
import Mathlib.Algebra.Order.BigOperators.Group.List
import Mathlib.Data.Nat.Pairing
/-!
# Whole starts

`start` returns as long as its awaits and its acceptors' turns keep coming
(`start_returns`): each of its awaits brings it further, and while it waits for the
acceptors it has stopped, each of their turns does.

When it has returned its handle, every proxy that says it runs has an acceptor that
does, if and only if no acceptor took its first look before its proxy was registered
(`start_acceptors`).
-/

namespace Eggchaos
open Lib

/-! ## What is left -/

/-- How many turns an acceptor can take once its token is cancelled. -/
def Supervisor.turnsLeft (v : Supervisor) : Nat :=
  match v.phase with
  | .accepting => 3
  | .looking => 2
  | .closing => 1
  | .finished => 0

theorem Supervisor.turnsLeft_le (v : Supervisor) : v.turnsLeft ≤ 3 := by
  unfold turnsLeft
  split <;> decide

/-- A turn of a cancelled acceptor brings it nearer to its end or does nothing. -/
theorem Supervisor.turn_cancelled (v : Supervisor) (present : Bool) (turn : ControlState.Turn) :
    ControlState.Supervisor.turn v present true turn = v ∨
      (ControlState.Supervisor.turn v present true turn).turnsLeft < v.turnsLeft := by
  cases turn <;> simp only [ControlState.Supervisor.turn, Bool.or_true, if_true] <;> split <;>
    first | exact .inl rfl | skip
  all_goals
    refine .inr ?_
    simp_all [turnsLeft]

/-- One that has not ended has a turn to take. -/
theorem Supervisor.exists_turn {v : Supervisor} (h : v.phase ≠ .finished) (present : Bool) :
    ∃ turn, turn ≠ .accepted ∧ (ControlState.Supervisor.turn v present true turn).turnsLeft < v.turnsLeft := by
  cases hphase : v.phase with
  | looking => exact ⟨.look, by decide, by simp [ControlState.Supervisor.turn, turnsLeft, hphase]⟩
  | accepting => exact ⟨.observe, by decide, by simp [ControlState.Supervisor.turn, turnsLeft, hphase]⟩
  | closing => exact ⟨.finish, by decide, by simp [ControlState.Supervisor.turn, turnsLeft, hphase]⟩
  | finished => exact absurd hphase h

/-- The phases in which `start` awaits its own calls. -/
def ServicePhase.busy : ServicePhase → Bool
  | .streams _ | .calling _ _ _ | .datagrams _ => true
  | .stopping _ | .returned _ => false

/-- A phase is busy, or `start` waits for its acceptors, or it has returned. -/
theorem ServicePhase.busy_or (phase : ServicePhase) :
    phase.busy = true ∨ (∃ e, phase = .stopping e) ∨ ∃ result, phase = .returned result := by
  cases phase with
  | streams rest => exact .inl rfl
  | calling spec task rest => exact .inl rfl
  | datagrams rest => exact .inl rfl
  | stopping e => exact .inr (.inl ⟨e, rfl⟩)
  | returned result => exact .inr (.inr ⟨result, rfl⟩)

namespace ServiceStart

variable {service : EggchaosService} {binds : Binds} {s : ServiceStart}

/-- What is left of `start`: its own awaits, then the turns of the acceptors it stops. -/
def variant (service : EggchaosService) (s : ServiceStart) : Nat :=
  match s.phase with
  | .streams rest => 3 * service.proxies.length + 5 * rest.length + service.datagramProxies.length + 3
  | .calling _ task rest =>
    3 * service.proxies.length + task.startSteps + 5 * rest.length + service.datagramProxies.length + 3
  | .datagrams rest => 3 * service.proxies.length + rest.length + 2
  | .stopping _ => (s.control.supervisors.map (·.turnsLeft)).sum + 1
  | .returned _ => 0

theorem variant_after_lt {done : List ProxySpec} {spec : ProxySpec} {control : ControlState} {steps : Nat}
    {out : ControlState × Task} (h : CallStep service.params.seed binds done spec control steps out)
    (hsteps : 0 < steps) (rest : List ProxySpec) (datagrams : DatagramRegistry) :
    variant service ⟨out.1, datagrams, .after spec rest out.2⟩ <
      3 * service.proxies.length + steps + 5 * rest.length + service.datagramProxies.length + 3 := by
  cases h with
  | awaits h hsame hless =>
    have hafter := h.after rest
    rw [hafter]
    simp only [variant]
    omega
  | registered h hnext hbound =>
    simp only [ServicePhase.after, variant]
    omega
  | unbound h hsame henabled hbind =>
    simp only [ServicePhase.after, variant]
    omega

/-- While `start` awaits its own calls, each await brings it further. -/
theorem advance_variant (hvalid : service.Valid) (h : Sound service binds s)
    (hbusy : s.phase.busy = true) : variant service (s.advance service binds) < variant service s := by
  obtain ⟨control, datagrams, phase⟩ := s
  change Progress service binds control datagrams phase at h
  cases h with
  | @streams done rest hspecs h hgeneration =>
    cases rest with
    | nil =>
      simp only [advance, variant]
      omega
    | cons spec rest =>
      have hcall := variant_after_lt (h.call (hvalid.next hspecs).2.2) (by decide : 0 < 5) rest []
      simp only [advance, variant, List.length_cons] at hcall ⊢
      omega
  | calling hspecs h hgeneration =>
    exact variant_after_lt (h.proceed (hvalid.next hspecs).1 (hvalid.next hspecs).2.1) h.startSteps_pos _ []
  | @datagrams _ done rest hspecs hstreams h hgeneration =>
    cases rest with
    | nil =>
      simp only [advance, variant]
      omega
    | cons spec rest =>
      simp only [advance]
      split
      · simp only [variant, List.length_cons]
        omega
      · have hturns := List.sum_le_card_nsmul (control.supervisors.map (·.turnsLeft)) 3 (by simp [Supervisor.turnsLeft_le])
        have hcount : control.supervisors.length ≤ service.proxies.length := by
          rw [← List.length_map, hstreams.acceptors, acceptorNames, List.length_map]
          exact List.length_filter_le _ _
        simp only [variant, ControlState.cancelAll, List.length_map, smul_eq_mul, List.length_cons] at hturns ⊢
        omega
  | stopping hspecs hstreams hleft hopens hcancelled => cases hbusy
  | returned h => cases hbusy

/-- An acceptor's turn does not change what `start` awaits. -/
theorem supervisor_variant (hbusy : s.phase.busy = true) (k : Nat) (turn : ControlState.Turn) :
    variant service (s.step service binds (.supervisor k turn)) = variant service s := by
  obtain ⟨control, datagrams, phase⟩ := s
  cases phase <;> first | rfl | cases hbusy

theorem stopping_cancelled (h : Sound service binds s) {e : ControlError}
    (hphase : s.phase = .stopping e) : ∀ v ∈ s.control.supervisors, v.token ∈ s.control.cancelled := by
  obtain ⟨control, datagrams, phase⟩ := s
  change Progress service binds control datagrams phase at h
  change phase = _ at hphase
  subst hphase
  cases h with
  | stopping hspecs hstreams hleft hopens hcancelled => exact hcancelled

/-- While `start` waits for the acceptors, a step brings it further or does nothing. -/
theorem stopping_step (h : Sound service binds s) {e : ControlError}
    (hphase : s.phase = .stopping e) (o : StartOp) :
    s.step service binds o = s ∨ variant service (s.step service binds o) < variant service s := by
  have hcancelled := stopping_cancelled h hphase
  obtain ⟨control, datagrams, phase⟩ := s
  change phase = _ at hphase
  subst hphase
  cases o with
  | advance =>
    simp only [step, advance]
    split
    · exact .inr (by simp [variant])
    · exact .inl rfl
  | supervisor k turn =>
    simp only [step, ControlState.step]
    split
    · exact .inl rfl
    · next v hv =>
      have htoken : v.token ∈ control.cancelled := hcancelled v (List.mem_of_getElem? hv)
      simp only [htoken, decide_true]
      rcases v.turn_cancelled (control.proxies.get v.name).isSome turn with hsame | hless
      · obtain ⟨hlt, rfl⟩ := List.getElem?_eq_some_iff.1 hv
        rw [hsame, List.set_getElem_self hlt]
        exact .inl rfl
      · exact .inr (Nat.succ_lt_succ (sum_map_set_lt hless hv))

/-- The operations that keep coming: the awaits end, and the acceptors are scheduled.
Connections need not arrive. -/
def Owed (o : StartOp) : Prop := ∀ k, o ≠ .supervisor k .accepted

theorem stopping_owed (h : Sound service binds s) {e : ControlError}
    (hphase : s.phase = .stopping e) :
    ∃ o, Owed o ∧ variant service (s.step service binds o) < variant service s := by
  by_cases hended : ∀ v ∈ s.control.supervisors, v.phase = .finished
  · refine ⟨.advance, fun k => by simp, ?_⟩
    have hall : s.control.supervisors.all (·.phase = .finished) = true :=
      List.all_eq_true.2 fun v hv => decide_eq_true (hended v hv)
    simp only [step, advance, hphase, hall, if_true, variant]
    omega
  · obtain ⟨v, hv, hphase'⟩ : ∃ v ∈ s.control.supervisors, v.phase ≠ .finished := by simpa using hended
    obtain ⟨k, hk⟩ := List.getElem?_of_mem hv
    obtain ⟨turn, hturn, hless⟩ := v.exists_turn hphase' (s.control.proxies.get v.name).isSome
    refine ⟨.supervisor k turn, fun j heq => hturn (by cases heq; rfl), ?_⟩
    have htoken := stopping_cancelled h hphase v hv
    simp only [step, ControlState.step, hk, htoken, decide_true, variant, hphase]
    exact Nat.succ_lt_succ (sum_map_set_lt hless hk)

/-! ## Start returns -/

theorem returned_step {result : Except EggchaosError Unit} (hphase : s.phase = .returned result) (o : StartOp) :
    (s.step service binds o).phase = .returned result := by
  cases o with
  | advance => simp only [step, advance, hphase]
  | supervisor k turn => exact hphase

theorem variant_eq_zero (h : variant service s = 0) : ∃ result, s.phase = .returned result := by
  unfold variant at h
  split at h
  · omega
  · omega
  · omega
  · omega
  · next result hphase => exact ⟨result, hphase⟩

/-- Where the awaits of `start` end again and again, and the acceptors keep being
scheduled, `start` returns. -/
theorem start_returns (service : EggchaosService) (binds : Binds) (hvalid : service.Valid) (ops : Nat → StartOp)
    (hfair : Fair Owed ops) :
    ∃ n result, (run (step service binds) (initial service) (opsBefore ops n)).phase = .returned result := by
  suffices h : ∃ n, variant service (run (step service binds) (initial service) (opsBefore ops n)) = 0 by
    obtain ⟨n, hn⟩ := h
    exact ⟨n, variant_eq_zero hn⟩
  have hadvance : ∀ s, Sound service binds s → s.phase.busy = true →
      variant service (step service binds s .advance) < variant service s := fun s h => advance_variant hvalid h
  refine hfair.reaches_zero (I := Sound service binds) (fun s o h => h.step hvalid o) ?_ ?_ ?_ initial_sound
  · intro s o h
    rcases ServicePhase.busy_or s.phase with hbusy | ⟨e, he⟩ | ⟨result, hresult⟩
    · cases o with
      | advance => exact Nat.le_of_lt (hadvance s h hbusy)
      | supervisor k turn => exact Nat.le_of_eq (supervisor_variant hbusy k turn)
    · rcases stopping_step h he o with hsame | hless
      · rw [hsame]
      · exact Nat.le_of_lt hless
    · simp [variant, returned_step hresult o]
  · intro s h hpos
    rcases ServicePhase.busy_or s.phase with hbusy | ⟨e, he⟩ | ⟨result, hresult⟩
    · exact ⟨.advance, fun k => by simp, hadvance s h hbusy⟩
    · exact stopping_owed h he
    · simp [variant, hresult] at hpos
  · intro s o o' h hless hsame
    rcases ServicePhase.busy_or s.phase with hbusy | ⟨e, he⟩ | ⟨result, hresult⟩
    · -- only an await decreases the variant, and an acceptor's turn leaves it to be done
      cases o' with
      | advance => exact absurd hsame (Nat.ne_of_lt (hadvance s h hbusy))
      | supervisor k turn =>
        cases o with
        | advance => exact hadvance _ (h.supervisor k turn) hbusy
        | supervisor k' turn' => exact absurd (supervisor_variant hbusy k' turn') (Nat.ne_of_lt hless)
    · rcases stopping_step h he o' with heq | hless'
      · rwa [heq]
      · exact absurd hsame (Nat.ne_of_lt hless')
    · simp [variant, hresult] at hless

/-- A schedule that takes every operation again and again. -/
def everyOp (n : Nat) : StartOp :=
  match n.unpair.2 with
  | 0 => .advance
  | c + 1 =>
    .supervisor (c / 4) (match c % 4 with
      | 0 => .look
      | 1 => .observe
      | 2 => .accepted
      | _ => .finish)

theorem everyOp_fair : Fair Owed everyOp := by
  have hcode : ∀ o : StartOp, ∃ c, ∀ n, everyOp (Nat.pair n c) = o := by
    intro o
    cases o with
    | advance => exact ⟨0, fun n => by simp [everyOp]⟩
    | supervisor k turn =>
      cases turn with
      | look => exact ⟨4 * k + 1, fun n => by simp [everyOp]⟩
      | observe => exact ⟨4 * k + 1 + 1, fun n => by simp [everyOp]; omega⟩
      | accepted => exact ⟨4 * k + 2 + 1, fun n => by simp [everyOp]; omega⟩
      | finish => exact ⟨4 * k + 3 + 1, fun n => by simp [everyOp]; omega⟩
  intro o _ n
  obtain ⟨c, hc⟩ := hcode o
  exact ⟨Nat.pair n c, Nat.left_le_pair n c, hc n⟩

theorem start_returns_taken :
    ∃ n result, (run (step twoProxies secondTaken) (initial twoProxies) (opsBefore everyOp n)).phase = .returned result :=
  start_returns twoProxies secondTaken twoProxies_valid everyOp everyOp_fair

/-! ## Acceptors that look too early -/

/-- `start` fails, or has failed. -/
def Failing (s : ServiceStart) : Prop := (∃ e, s.phase = .stopping e) ∨ ∃ e, s.phase = .returned (.error e)

/-- No acceptor takes its first look before its proxy is registered. -/
def Patient (s : ServiceStart) : StartOp → Prop
  | .supervisor k .look => ∀ v, s.control.supervisors[k]? = some v → v.phase = .looking →
      (s.control.proxies.get v.name).isSome
  | _ => True

/-- An await of `start` spawns at most one acceptor, which has yet to look. -/
theorem advance_supervisors (h : Sound service binds s) :
    (s.advance service binds).control.supervisors = s.control.supervisors ∨
      ∃ name token, (s.advance service binds).control.supervisors = s.control.supervisors ++ [⟨name, token, .looking⟩] := by
  obtain ⟨control, datagrams, phase⟩ := s
  change Progress service binds control datagrams phase at h
  cases h with
  | @streams done rest hspecs h hgeneration =>
    cases rest with
    | nil => exact .inl rfl
    | cons spec rest => exact .inl (control.start_regenerated service.params.seed spec.startRequest).supervisors
  | @calling done spec task rest hspecs h hgeneration =>
    simp only [advance]
    cases h with
    | checking henabled h | binding henabled h | inserting henabled h hbound | importing hdisabled h =>
      simp only [ControlState.proceed]
      split
      · exact .inl rfl
      · first | exact .inl rfl | (split <;> exact .inl rfl)
    | spawning henabled h hbound => exact .inr ⟨spec.name, control.tokens, rfl⟩
  | @datagrams _ done rest hspecs hstreams h hgeneration =>
    cases rest with
    | nil => exact .inl rfl
    | cons spec rest =>
      simp only [advance]
      split <;> exact .inl rfl
  | stopping hspecs hstreams hleft hopens hcancelled =>
    simp only [advance]
    split <;> exact .inl rfl
  | returned h => exact .inl rfl

theorem Failing.step (h : Failing s) (o : StartOp) : Failing (s.step service binds o) := by
  cases o with
  | supervisor k turn => exact h
  | advance =>
    rcases h with ⟨e, he⟩ | ⟨e, he⟩
    · simp only [ServiceStart.step, advance, he]
      split
      · exact .inr ⟨_, rfl⟩
      · exact .inl ⟨e, he⟩
    · have hreturned : (s.step service binds .advance).phase = .returned (.error e) := returned_step he .advance
      exact .inr ⟨e, hreturned⟩

/-- Unless `start` fails no token is cancelled. -/
theorem Sound.cancelled (h : Sound service binds s) (hfine : ¬ Failing s) : s.control.cancelled = [] := by
  obtain ⟨control, datagrams, phase⟩ := s
  change Progress service binds control datagrams phase at h
  cases h with
  | streams done hspecs h hgeneration => exact h.cancelled
  | calling hspecs h hgeneration =>
    cases h with
    | checking henabled h | binding henabled h | spawning henabled h hbound | inserting henabled h hbound
    | importing hdisabled h => exact h.cancelled
  | datagrams done hspecs hstreams h hgeneration => exact hstreams.cancelled
  | stopping hspecs hstreams hleft hopens hcancelled => exact absurd (.inl ⟨_, rfl⟩) hfine
  | returned h =>
    cases h with
    | serving hstreams hdatagrams hgeneration => exact hstreams.cancelled
    | unbound hspecs henabled hbind hleft hdatagrams => exact hleft.cancelled
    | stopped hspecs hstreams hleft hopens hended hdatagrams => exact absurd (.inr ⟨_, rfl⟩) hfine

/-- Every acceptor is in its loop. -/
def AllLive (s : ServiceStart) : Prop := ∀ v ∈ s.control.supervisors, v.live = true

/-- A turn of a live acceptor that is not cancelled and whose proxy is there, if it looks. -/
theorem turn_live {v : Supervisor} (hlive : v.live = true) {present : Bool} {turn : ControlState.Turn}
    (hpresent : turn = .look → v.phase = .looking → present = true) :
    (ControlState.Supervisor.turn v present false turn).live = true := by
  cases hphase : v.phase with
  | looking => cases turn <;> simp_all [ControlState.Supervisor.turn, Supervisor.live]
  | accepting => cases turn <;> simp_all [ControlState.Supervisor.turn, Supervisor.live]
  | closing => simp [Supervisor.live, hphase] at hlive
  | finished => simp [Supervisor.live, hphase] at hlive

theorem patient_step (h : Sound service binds s) (hlive : Failing s ∨ AllLive s) {o : StartOp} (hpatient : Patient s o) :
    Failing (s.step service binds o) ∨ AllLive (s.step service binds o) := by
  by_cases hfail : Failing s
  · exact .inl (hfail.step o)
  have hlive := hlive.resolve_left hfail
  refine .inr ?_
  cases o with
  | advance =>
    intro v hv
    rcases advance_supervisors h with hsame | ⟨name, token, hmore⟩
    · exact hlive v (hsame ▸ hv)
    · rw [step, hmore] at hv
      rcases List.mem_append.1 hv with hv | hv
      · exact hlive v hv
      · rw [List.mem_singleton.1 hv]
        rfl
  | supervisor k turn =>
    intro v hv
    change v ∈ (s.control.step service.params.seed (.supervisor k turn)).supervisors at hv
    rcases ControlState.mem_step_supervisor hv with hv | ⟨w, hw, rfl⟩
    · exact hlive v hv
    · simp only [h.cancelled hfail, List.not_mem_nil, decide_false]
      refine turn_live (hlive w (List.mem_of_getElem? hw)) ?_
      rintro rfl hlooking
      exact hpatient w hw hlooking

/-- An acceptor that has left its loop does not come back. -/
theorem ended_step (h : Sound service binds s) (hended : ¬ AllLive s) (o : StartOp) :
    ¬ AllLive (s.step service binds o) := by
  intro hlive
  refine hended fun v hv => ?_
  cases o with
  | advance =>
    rcases advance_supervisors h with hsame | ⟨name, token, hmore⟩
    · exact hlive v (hsame ▸ hv)
    · exact hlive v (by rw [step, hmore]; exact List.mem_append_left _ hv)
  | supervisor k turn =>
    by_contra hv'
    obtain ⟨j, hj⟩ := List.getElem?_of_mem hv
    have hlt := (List.getElem?_eq_some_iff.1 hj).1
    by_cases hjk : k = j
    · subst hjk
      have hmem : ControlState.Supervisor.turn v (s.control.proxies.get v.name).isSome (v.token ∈ s.control.cancelled) turn ∈
          (s.step service binds (.supervisor k turn)).control.supervisors := by
        simp only [step, ControlState.step, hj]
        exact List.mem_set hlt _
      have hdead := ControlState.Supervisor.turn_ended (by simpa using hv') (s.control.proxies.get v.name).isSome
        (v.token ∈ s.control.cancelled) turn
      rw [hlive _ hmem] at hdead
      cases hdead
    · refine hv' (hlive v ?_)
      refine List.mem_of_getElem? (i := j) ?_
      simp only [step, ControlState.step]
      split
      · exact hj
      · rw [List.getElem?_set_ne hjk]
        exact hj

theorem impatient_step {o : StartOp} (himpatient : ¬ Patient s o) : ¬ AllLive (s.step service binds o) := by
  cases o with
  | advance => exact absurd trivial himpatient
  | supervisor k turn =>
    cases turn with
    | look =>
      simp only [Patient, not_forall] at himpatient
      obtain ⟨v, hv, hlooking, habsent⟩ := himpatient
      intro hlive
      have hdead := hlive (ControlState.Supervisor.turn v (s.control.proxies.get v.name).isSome
        (v.token ∈ s.control.cancelled) .look) (by
          simp only [step, ControlState.step, hv]
          exact List.mem_set (List.getElem?_eq_some_iff.1 hv).1 _)
      simp [ControlState.Supervisor.turn, hlooking, habsent, Supervisor.live] at hdead
    | observe | accepted | finish => exact absurd trivial himpatient

/-- Along a run that does not fail, all acceptors stay in their loops exactly if none
looks too early. -/
theorem allLive_iff (hvalid : service.Valid) (h : Sound service binds s) (hlive : AllLive s) (ops : List StartOp)
    (hfine : ¬ Failing (run (step service binds) s ops)) :
    AllLive (run (step service binds) s ops) ↔ Along (step service binds) Patient s ops := by
  induction ops generalizing s with
  | nil => exact iff_of_true hlive trivial
  | cons o ops ih =>
    have hnext : Sound service binds (step service binds s o) := h.step hvalid o
    by_cases hpatient : Patient s o
    · have hstep : AllLive (step service binds s o) := by
        refine (patient_step h (.inr hlive) hpatient).resolve_left fun hfail => hfine ?_
        exact run_inv Failing (fun s o h => h.step o) hfail ops
      exact (ih hnext hstep hfine).trans ⟨fun hrest => ⟨hpatient, hrest⟩, fun hall => hall.2⟩
    · refine iff_of_false ?_ fun hall => hpatient hall.1
      have hended : Sound service binds (run (step service binds) (step service binds s o) ops) ∧
          ¬ AllLive (run (step service binds) (step service binds s o) ops) := by
        refine run_inv (fun s => Sound service binds s ∧ ¬ AllLive s) ?_ ⟨hnext, impatient_step hpatient⟩ ops
        exact fun s o h => ⟨h.1.step hvalid o, ended_step h.1 h.2 o⟩
      exact hended.2

end ServiceStart

/-- Among proxies with different names the acceptors are those of the proxies that say
they run. -/
theorem Started.live_iff {seed : UInt64} {binds : Binds} {specs : List ProxySpec} {control : ControlState}
    (h : Started seed binds specs control) (hnames : (specs.map (·.name)).Nodup) :
    (∀ p ∈ control.proxies, p.2.running = true →
      ∃ k v, p.2.done = some k ∧ control.supervisors[k]? = some v ∧ v.live = true) ↔
      ∀ v ∈ control.supervisors, v.live = true := by
  constructor
  · intro hall v hv
    obtain ⟨j, hj⟩ := List.getElem?_of_mem hv
    have hacceptors : (control.supervisors.map (·.name)).Nodup := by
      rw [h.acceptors]
      exact hnames.sublist (List.filter_sublist.map _)
    obtain ⟨spec, hspec, hname⟩ : ∃ spec ∈ specs.filter (·.enabled), spec.name = v.name := by
      have hmem := List.mem_map_of_mem (f := (·.name)) hv
      rw [h.acceptors] at hmem
      exact List.mem_map.1 hmem
    obtain ⟨hspec, henabled⟩ := List.mem_filter.1 hspec
    obtain ⟨p, hp, hentry⟩ := exists_of_forall₂ h.entries spec hspec
    obtain ⟨k, w, hdone, hw, hlive⟩ := hall p hp (hentry.running.trans henabled)
    obtain ⟨k', w', hdone', hw', hname', -⟩ := hentry.acceptor henabled
    rw [hdone] at hdone'
    cases hdone'
    rw [hw] at hw'
    cases hw'
    -- the names of the acceptors are different, so this is the one
    have hsame : k = j := by
      have hk := (List.getElem?_eq_some_iff.1 hw).1
      have hget : (control.supervisors.map (·.name))[k]? = (control.supervisors.map (·.name))[j]? := by
        rw [List.getElem?_map, List.getElem?_map, hw, hj, Option.map_some, Option.map_some, hname', hname]
      exact (List.getElem?_inj (by rwa [List.length_map]) hacceptors).1 hget
    subst hsame
    rw [hw] at hj
    cases hj
    exact hlive
  · intro hall p hp hrunning
    obtain ⟨spec, -, hentry⟩ := exists_of_forall₂ h.entries.flip p hp
    have henabled : spec.enabled = true := hentry.running.symm.trans hrunning
    obtain ⟨k, v, hdone, hv, -, -⟩ := hentry.acceptor henabled
    exact ⟨k, v, hdone, hv, hall v (List.mem_of_getElem? hv)⟩

namespace ServiceStart

/-- Once `start` has returned its handle, every proxy that says it runs has an acceptor
in its loop, exactly if none looked for its proxy before this was registered. -/
theorem start_acceptors (service : EggchaosService) (binds : Binds) (hvalid : service.Valid) (ops : List StartOp)
    (h : (run (step service binds) (initial service) ops).phase = .returned (.ok ())) :
    (∀ p ∈ (run (step service binds) (initial service) ops).control.proxies, p.2.running = true →
      ∃ k v, p.2.done = some k ∧
        (run (step service binds) (initial service) ops).control.supervisors[k]? = some v ∧ v.live = true) ↔
      Along (step service binds) Patient (initial service) ops := by
  have hfine : ¬ Failing (run (step service binds) (initial service) ops) := by
    rintro (⟨e, he⟩ | ⟨e, he⟩) <;> rw [h] at he <;> cases he
  have hlive : AllLive (initial service) := fun v hv => (List.not_mem_nil hv).elim
  rw [← allLive_iff hvalid initial_sound hlive ops hfine]
  have hsound : Sound service binds _ := run_sound hvalid ops
  rw [Sound, h] at hsound
  unfold AllLive
  generalize (run (step service binds) (initial service) ops).control = control at hsound ⊢
  generalize (run (step service binds) (initial service) ops).datagrams = datagrams at hsound
  cases hsound with
  | returned h =>
    cases h with
    | serving hstreams hdatagrams hgeneration => exact hstreams.live_iff hvalid.names

def allBound : Binds where
  tcp _ := .ok plainSpec.listen
  udp _ := .error ""

/-- Each acceptor looks once its proxy is registered. -/
def patientOps : List StartOp :=
  List.replicate 5 .advance ++ .supervisor 0 .look :: List.replicate 5 .advance ++ .supervisor 1 .look ::
    List.replicate 2 .advance

theorem start_acceptors_patient :
    ∃ p ∈ (run (step twoProxies allBound) (initial twoProxies) patientOps).control.proxies,
      ∃ k v, p.2.done = some k ∧
        (run (step twoProxies allBound) (initial twoProxies) patientOps).control.supervisors[k]? = some v ∧
          v.live = true := by
  have hpatient : Along (step twoProxies allBound) Patient (initial twoProxies) patientOps := by
    simp only [patientOps, List.replicate, List.cons_append, List.nil_append, Along, Patient, true_and, and_true]
    refine ⟨fun v hv _ => ?_, fun v hv _ => ?_⟩
    · cases hv
      rfl
    · cases hv
      rfl
  have hall := (start_acceptors twoProxies allBound twoProxies_valid patientOps rfl).2 hpatient
  have hrunning : ∃ p ∈ (run (step twoProxies allBound) (initial twoProxies) patientOps).control.proxies,
      p.2.running = true := ⟨_, List.mem_cons_self, rfl⟩
  obtain ⟨p, hp, hrunning⟩ := hrunning
  exact ⟨p, hp, hall p hp hrunning⟩

end ServiceStart

end Eggchaos
