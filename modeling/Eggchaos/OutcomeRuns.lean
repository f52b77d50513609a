import Eggchaos.ControlLemmas
import Eggchaos.Outcomes
/-!
# Outcomes tell their causes

What an outcome says about its cause (`OutcomeState.Truthful`) stays true once it is
(`Truthful.later`), so it has to hold when the outcome is chosen. It does where a
cancelled task classifies its cancellation; a drain that is cancelled and a purge by
name choose without looking (`OutcomeState.Attributable`). In runs where these two
have a cause the recorded outcomes are truthful (`OutcomeState.outcomes_truthful`).
-/

namespace Eggchaos
open Lib

namespace ControlState

/-- The supervisor has left its accept loop. -/
def ended (s : ControlState) (k : Nat) : Bool := (s.supervisors[k]?).any fun v => !v.live

theorem Supervisor.turn_ended {v : Supervisor} (h : v.live = false) (present cancelled : Bool) (turn : Turn) :
    (Supervisor.turn v present cancelled turn).live = false := by
  cases hphase : v.phase with
  | looking => simp [Eggchaos.Supervisor.live, hphase] at h
  | accepting => simp [Eggchaos.Supervisor.live, hphase] at h
  | closing => cases turn <;> simp [Supervisor.turn, Eggchaos.Supervisor.live, hphase]
  | finished => cases turn <;> simp [Supervisor.turn, Eggchaos.Supervisor.live, hphase]

theorem Spawns.ended {s s' : ControlState} (h : Spawns s s') {k : Nat} (hended : s.ended k = true) : s'.ended k = true := by
  unfold ControlState.ended at hended ⊢
  rcases h.supervisors with hsame | ⟨name, hspawned⟩
  · rw [hsame]
    exact hended
  · obtain ⟨v, hv, hlive⟩ := (Option.any_eq_true _ _).1 hended
    rw [hspawned, List.getElem?_append_left (List.getElem?_eq_some_iff.1 hv).1, hv]
    exact hlive

variable (seed : UInt64) (s : ControlState)

/-- A step cancels tokens and ends supervisors, and takes nothing of it back. -/
theorem step_later (op : Op) :
    s.cancelled ⊆ (s.step seed op).cancelled ∧ ∀ k, s.ended k = true → (s.step seed op).ended k = true := by
  cases op with
  | begin request =>
    have h := (s.start_regenerated seed request).spawns rfl (List.Subset.refl _) rfl
    exact ⟨h.cancelled, fun k => h.ended⟩
  | advance i bind =>
    simp only [step]
    cases hcall : s.calls[i]? with
    | none => exact ⟨List.Subset.refl _, fun k => id⟩
    | some call =>
      have h := s.proceed_spawns seed call.task bind
      exact ⟨h.cancelled, fun k => h.ended⟩
  | supervisor j turn =>
    simp only [step]
    cases hv : s.supervisors[j]? with
    | none => exact ⟨List.Subset.refl _, fun k => id⟩
    | some v =>
      refine ⟨List.Subset.refl _, fun k hended => ?_⟩
      unfold ControlState.ended at hended ⊢
      obtain ⟨w, hw, hlive⟩ := (Option.any_eq_true _ _).1 hended
      rw [List.getElem?_set]
      split
      · next hjk =>
        subst hjk
        rw [hv] at hw
        cases hw
        rw [if_pos (List.getElem?_eq_some_iff.1 hv).1]
        simpa using Supervisor.turn_ended (by simpa using hlive) _ _ turn
      · rw [hw]
        exact hlive

end ControlState

namespace OutcomeState

/-! ## Truthfulness -/

/-- The connection's scope is cancelled, or the supervisor that accepted it has ended. -/
def proxyGone (s : OutcomeState) (id : Nat) : Bool :=
  (s.accepted[id]?).any fun a => a.scope ∈ s.control.cancelled || s.control.ended a.owner

/-- What the outcome says about its cause is so. -/
def Truthful (s : OutcomeState) (id : Nat) : ConnectionOutcome → Prop
  | .killedByOperator => id ∈ s.killed
  | .proxyRemoved => s.proxyGone id = true
  | .serviceShutdown => s.shutdownInitiated = true
  | .relayCompleted | .connectFailed _ | .gracefulTermination _ | .hardReset _ _ | .relayError _ => True

/-- A later state: causes are only added. -/
structure Later (s s' : OutcomeState) : Prop where
  killed : s.killed ⊆ s'.killed
  cancelled : s.control.cancelled ⊆ s'.control.cancelled
  ended : ∀ k, s.control.ended k = true → s'.control.ended k = true
  accepted : s.accepted <+: s'.accepted
  initiated : s.shutdownInitiated = true → s'.shutdownInitiated = true

variable {s s' : OutcomeState}

theorem Later.of_eq (hkilled : s'.killed = s.killed) (hcontrol : s'.control = s.control)
    (haccepted : s'.accepted = s.accepted) (hinitiated : s'.shutdownInitiated = s.shutdownInitiated) : Later s s' where
  killed := hkilled ▸ List.Subset.refl _
  cancelled := hcontrol ▸ List.Subset.refl _
  ended _ h := hcontrol ▸ h
  accepted := haccepted ▸ List.prefix_refl _
  initiated h := hinitiated ▸ h

theorem Later.proxyGone (h : Later s s') {id : Nat} (hgone : s.proxyGone id = true) : s'.proxyGone id = true := by
  obtain ⟨a, ha, hcause⟩ := (Option.any_eq_true _ _).1 hgone
  obtain ⟨rest, hrest⟩ := h.accepted
  refine (Option.any_eq_true _ _).2 ⟨a, ?_, ?_⟩
  · rw [← hrest, List.getElem?_append_left (List.getElem?_eq_some_iff.1 ha).1]
    exact ha
  · rw [Bool.or_eq_true, decide_eq_true_iff] at hcause ⊢
    exact hcause.imp (fun hscope => h.cancelled hscope) (h.ended a.owner)

theorem Truthful.later (h : Later s s') {id : Nat} {outcome : ConnectionOutcome} (htrue : s.Truthful id outcome) :
    s'.Truthful id outcome := by
  cases outcome with
  | killedByOperator => exact h.killed htrue
  | proxyRemoved => exact h.proxyGone htrue
  | serviceShutdown => exact h.initiated htrue
  | relayCompleted => trivial
  | connectFailed message => trivial
  | gracefulTermination drained => trivial
  | hardReset client upstream => trivial
  | relayError message => trivial

/-- A cancelled task classifies its cancellation truthfully. -/
theorem classifyCancel_truthful {id : Nat} (h : s.tokenCancelled id = true) : s.Truthful id (s.classifyCancel id) := by
  unfold classifyCancel
  split
  · next hinitiated => exact hinitiated
  · split
    · next hscope =>
      obtain ⟨a, ha, hcancelled⟩ := (Option.any_eq_true _ _).1 hscope
      exact (Option.any_eq_true _ _).2 ⟨a, ha, by rw [hcancelled]; rfl⟩
    · next hscope =>
      rw [tokenCancelled, Bool.or_eq_true, decide_eq_true_iff] at h
      exact h.resolve_right hscope

/-! ## The invariant -/

/-- An outcome that a purge may record. -/
def PurgeOutcome (s : OutcomeState) (outcome : ConnectionOutcome) : Prop :=
  outcome = .proxyRemoved ∨ outcome = .serviceShutdown ∧ s.shutdownInitiated = true

def PhaseOk (s : OutcomeState) (id : Nat) : TaskPhase → Prop
  | .closing outcome _ | .recording outcome => s.Truthful id outcome
  | .dialling | .opening | .relaying | .draining | .ended => True

def WorkOk (s : OutcomeState) : SupervisorWork → Prop
  | .reading outcome | .lookingUp outcome _ => s.PurgeOutcome outcome
  | .purging outcome id _ taking => s.PurgeOutcome outcome ∧ (taking = .evidence true → s.Truthful id outcome)
  | .purgeRecording outcome id _ => s.PurgeOutcome outcome ∧ s.Truthful id outcome
  | .idle | .inserting _ | .registering _ | .purged => True

/-- Whatever is recorded, or about to be, is truthful. -/
structure Honest (s : OutcomeState) : Prop where
  tasks : ∀ t ∈ s.tasks, s.PhaseOk t.id t.phase
  works : ∀ k, s.WorkOk (s.work k)
  history : ∀ r ∈ s.history, s.Truthful r.id r.outcome

theorem PurgeOutcome.later (h : Later s s') {outcome : ConnectionOutcome} (ho : s.PurgeOutcome outcome) :
    s'.PurgeOutcome outcome := ho.imp id fun hshut => ⟨hshut.1, h.initiated hshut.2⟩

theorem PhaseOk.later (h : Later s s') {id : Nat} {phase : TaskPhase} (hp : s.PhaseOk id phase) : s'.PhaseOk id phase := by
  cases phase with
  | closing outcome taking => exact Truthful.later h hp
  | recording outcome => exact Truthful.later h hp
  | dialling => trivial
  | opening => trivial
  | relaying => trivial
  | draining => trivial
  | ended => trivial

theorem WorkOk.later (h : Later s s') {work : SupervisorWork} (hw : s.WorkOk work) : s'.WorkOk work := by
  cases work with
  | reading outcome => exact PurgeOutcome.later h hw
  | lookingUp outcome ids => exact PurgeOutcome.later h hw
  | purging outcome id rest taking => exact ⟨PurgeOutcome.later h hw.1, fun htaken => Truthful.later h (hw.2 htaken)⟩
  | purgeRecording outcome id rest => exact ⟨PurgeOutcome.later h hw.1, Truthful.later h hw.2⟩
  | idle => trivial
  | inserting id => trivial
  | registering id => trivial
  | purged => trivial

/-- Nothing is recorded or chosen. -/
theorem Honest.later (h : s.Honest) (hlater : Later s s') (htasks : s'.tasks = s.tasks) (hwork : s'.work = s.work)
    (hhistory : s'.history = s.history) : s'.Honest where
  tasks t ht := (h.tasks t (htasks ▸ ht)).later hlater
  works k := hwork ▸ (h.works k).later hlater
  history r hr := (h.history r (hhistory ▸ hr)).later hlater

theorem Honest.setTask (h : s.Honest) {i : Nat} {t : ConnectionTask} (ht : s.tasks[i]? = some t) {phase : TaskPhase}
    (hphase : s.PhaseOk t.id phase) : (s.setTask i phase).Honest where
  tasks u hu := by
    obtain ⟨j, hj⟩ := List.mem_iff_getElem?.1 hu
    simp only [OutcomeState.setTask, List.getElem?_modify] at hj
    obtain ⟨w, hw, rfl⟩ := Option.map_eq_some_iff.1 hj
    split
    · next hij =>
      subst hij
      rw [ht] at hw
      cases hw
      exact hphase
    · exact h.tasks w (List.mem_of_getElem? hw)
  works := h.works
  history := h.history

theorem Honest.setWork (h : s.Honest) (k : Nat) (work : SupervisorWork) (hwork : s.WorkOk work) : (s.setWork k work).Honest where
  tasks := h.tasks
  works j := by
    by_cases hj : j = k
    · subst hj
      simp only [OutcomeState.setWork, Function.update_self]
      exact hwork
    · simp only [OutcomeState.setWork, Function.update_of_ne hj]
      exact h.works j
  history := h.history

theorem Honest.push (h : s.Honest) (limit : Nat) (closed : ClosedConnection) (htrue : s.Truthful closed.id closed.outcome) :
    (s.push limit closed).Honest := by
  unfold OutcomeState.push
  split
  · exact h
  · refine ⟨h.tasks, h.works, fun r hr => ?_⟩
    rcases List.mem_append.1 hr with hr | hr
    · exact h.history r (List.mem_of_mem_drop hr)
    · rw [List.mem_singleton.1 hr]
      exact htrue

theorem push_later (s : OutcomeState) (limit : Nat) (closed : ClosedConnection) : Later s (s.push limit closed) := by
  unfold push
  split
  · exact .of_eq rfl rfl rfl rfl
  · exact .of_eq rfl rfl rfl rfl

theorem take_later (s : OutcomeState) (id : Nat) (taking : Taking) : Later s (s.take id taking).1 := by
  cases taking <;> exact .of_eq rfl rfl rfl rfl

theorem Honest.take (h : s.Honest) (id : Nat) (taking : Taking) : (s.take id taking).1.Honest := by
  cases taking <;> exact h.later (.of_eq rfl rfl rfl rfl) rfl rfl rfl

theorem Honest.purgeNext (h : s.Honest) (k : Nat) {outcome : ConnectionOutcome} (ho : s.PurgeOutcome outcome)
    (ids : List Nat) : (s.purgeNext k outcome ids).Honest := by
  cases ids with
  | nil => exact h.setWork k _ trivial
  | cons id rest => exact h.setWork k _ ⟨ho, fun htaken => by cases htaken⟩

/-! ## Steps -/

/-- The connection whose record a purge is about to take as removed with its proxy. -/
def takesRemoved : SupervisorWork → Option Nat
  | .purging .proxyRemoved id _ .record => some id
  | _ => none

/-- The two places that do not look for the cause have one: a drain is interrupted
only after the connection's own token was cancelled, and a purge that calls its
proxy removed takes the record of a connection whose scope is cancelled or whose
supervisor has ended. -/
def Attributable (s : OutcomeState) : OutcomeOp → Prop
  | .observe i => ∀ t ∈ s.tasks[i]?, t.phase = .draining → s.tokenCancelled t.id = true → t.id ∈ s.killed
  | .work k => ∀ id ∈ takesRemoved (s.work k), s.connections.any (·.1 = id) = true → s.proxyGone id = true
  | .control _ | .accepted _ | .abort _ | .kill _ | .resetRead | .resetCancel _ | .initiateShutdown | .cascadeShutdown
  | .dial _ _ | .opened _ _ | .relay _ _ | .drain _ _ | .close _ => True

instance Attributable.decidable (s : OutcomeState) : DecidablePred s.Attributable
  | .observe i =>
    inferInstanceAs (Decidable (∀ t ∈ s.tasks[i]?, t.phase = .draining → s.tokenCancelled t.id = true → t.id ∈ s.killed))
  | .work k =>
    inferInstanceAs (Decidable (∀ id ∈ takesRemoved (s.work k), s.connections.any (·.1 = id) = true → s.proxyGone id = true))
  | .control _ | .accepted _ | .abort _ | .kill _ | .resetRead | .resetCancel _ | .initiateShutdown | .cascadeShutdown
  | .dial _ _ | .opened _ _ | .relay _ _ | .drain _ _ | .close _ => .isTrue trivial

theorem withControl_later (s : OutcomeState) {control : ControlState} (hcancelled : s.control.cancelled ⊆ control.cancelled)
    (hended : ∀ k, s.control.ended k = true → control.ended k = true) : Later s (s.withControl control) where
  killed := List.Subset.refl _
  cancelled := by
    simp only [withControl]
    split
    · exact List.Subset.trans hcancelled (List.subset_append_right _ _)
    · exact hcancelled
  ended k h := by
    simp only [withControl]
    split
    · exact hended k h
    · exact hended k h
  accepted := List.prefix_refl _
  initiated := id

theorem Honest.withControl (h : s.Honest) (seed : UInt64) (op : ControlState.Op) :
    (s.withControl (s.control.step seed op)).Honest := by
  obtain ⟨hcancelled, hended⟩ := s.control.step_later seed op
  exact h.later (s.withControl_later hcancelled hended) rfl rfl rfl

/-- The task closes with an outcome that is so. -/
theorem Honest.closeWith (h : s.Honest) {i : Nat} {t : ConnectionTask} (ht : s.tasks[i]? = some t)
    {outcome : ConnectionOutcome} (htrue : s.Truthful t.id outcome) : (s.closeWith i outcome).Honest :=
  h.setTask ht htrue

theorem Honest.observed (h : s.Honest) {i : Nat} {t : ConnectionTask} (ht : s.tasks[i]? = some t)
    (hdrain : t.phase = .draining → s.tokenCancelled t.id = true → t.id ∈ s.killed) : (s.observed i t).Honest := by
  unfold OutcomeState.observed
  split
  · next hcancelled =>
    split
    · exact h.closeWith ht (classifyCancel_truthful hcancelled)
    · exact h.closeWith ht (classifyCancel_truthful hcancelled)
    · next hphase => exact h.closeWith ht (hdrain hphase hcancelled)
    · exact h
    · exact h
    · exact h
    · exact h
  · exact h

theorem Honest.dialled (h : s.Honest) {i : Nat} {t : ConnectionTask} (ht : s.tasks[i]? = some t)
    (result : Except String Unit) : (s.dialled i t result).Honest := by
  unfold OutcomeState.dialled
  split
  · exact h.setTask ht trivial
  · exact h.closeWith ht trivial
  · exact h

theorem Honest.openedStreams (h : s.Honest) {i : Nat} {t : ConnectionTask} (ht : s.tasks[i]? = some t)
    (result : Except String Unit) : (s.openedStreams i t result).Honest := by
  unfold OutcomeState.openedStreams
  split
  · exact h.setTask ht trivial
  · exact h.closeWith ht trivial
  · exact h

theorem Honest.relayEnded (h : s.Honest) {i : Nat} {t : ConnectionTask} (ht : s.tasks[i]? = some t) (e : RelayEnd) :
    (s.relayEnded i t e).Honest := by
  unfold OutcomeState.relayEnded
  split
  · split
    · exact h.closeWith ht trivial
    · exact h.closeWith ht trivial
    · exact h.closeWith ht trivial
    · exact h.closeWith ht trivial
    · exact h.closeWith ht trivial
    · exact h.setTask ht trivial
    · exact h.closeWith ht trivial
  · exact h

theorem Honest.drainEnded (h : s.Honest) {i : Nat} {t : ConnectionTask} (ht : s.tasks[i]? = some t) (e : DrainEnd) :
    (s.drainEnded i t e).Honest := by
  unfold OutcomeState.drainEnded
  split
  · split
    · exact h.closeWith ht trivial
    · exact h.closeWith ht trivial
    · exact h.closeWith ht trivial
    · exact h.closeWith ht trivial
  · exact h

theorem take_tasks (s : OutcomeState) (id : Nat) (taking : Taking) : (s.take id taking).1.tasks = s.tasks := by
  cases taking <;> rfl

theorem push_tasks (s : OutcomeState) (limit : Nat) (closed : ClosedConnection) : (s.push limit closed).tasks = s.tasks := by
  unfold push
  split <;> rfl

theorem Honest.closeNext (h : s.Honest) (limit : Nat) {i : Nat} {t : ConnectionTask} (ht : s.tasks[i]? = some t) :
    (s.closeNext limit i t).Honest := by
  have hphase := h.tasks t (List.mem_of_getElem? ht)
  unfold OutcomeState.closeNext
  cases hp : t.phase with
  | closing outcome taking =>
    rw [hp] at hphase
    have htaken := h.take t.id taking
    have ht' : (s.take t.id taking).1.tasks[i]? = some t := (congrArg (·[i]?) (s.take_tasks t.id taking)).trans ht
    have htrue : (s.take t.id taking).1.Truthful t.id outcome := Truthful.later (s.take_later t.id taking) hphase
    cases taking with
    | token => exact htaken.setTask ht' htrue
    | record => exact htaken.setTask ht' htrue
    | evidence taken =>
      cases taken with
      | true => exact htaken.setTask ht' htrue
      | false => exact htaken.setTask ht' trivial
  | recording outcome =>
    rw [hp] at hphase
    have hpushed := h.push limit ⟨t.id, outcome⟩ hphase
    exact hpushed.setTask ((congrArg (·[i]?) (s.push_tasks limit ⟨t.id, outcome⟩)).trans ht) trivial
  | dialling => exact h
  | opening => exact h
  | relaying => exact h
  | draining => exact h
  | ended => exact h

theorem Honest.doWork (h : s.Honest) (seed : UInt64) (limit k : Nat) (v : Supervisor)
    (hpurges : ∀ id ∈ takesRemoved (s.work k), s.connections.any (·.1 = id) = true → s.proxyGone id = true) : (s.doWork seed limit k v).Honest := by
  have hwork := h.works k
  unfold OutcomeState.doWork
  cases hw : s.work k with
  | idle =>
    dsimp only
    split
    · refine h.setWork k _ ?_
      split
      · next hinitiated => exact .inr ⟨rfl, hinitiated⟩
      · exact .inl rfl
    · exact h
  | inserting id => exact (h.setWork k (.registering id) trivial).later (.of_eq rfl rfl rfl rfl) rfl rfl rfl
  | registering id =>
    have hturned := (h.setWork k .idle trivial).withControl seed (.supervisor k .accepted)
    refine ⟨fun t ht => ?_, hturned.works, hturned.history⟩
    rcases List.mem_append.1 ht with ht | ht
    · exact hturned.tasks t ht
    · rw [List.mem_singleton.1 ht]
      trivial
  | reading outcome =>
    rw [hw] at hwork
    dsimp only
    split
    · exact h.setWork k _ trivial
    · exact h.setWork k _ hwork
  | lookingUp outcome ids =>
    rw [hw] at hwork
    exact h.purgeNext k hwork ids
  | purging outcome id rest taking =>
    rw [hw] at hwork
    have htaken := h.take id taking
    have hlater := s.take_later id taking
    have ho := PurgeOutcome.later hlater hwork.1
    cases taking with
    | token => exact htaken.setWork k _ ⟨ho, fun heq => by cases heq⟩
    | record =>
      refine htaken.setWork k _ ⟨ho, fun heq => ?_⟩
      -- the record is there; the cause is known for a removal, and the flag for a shutdown
      have hrecord : s.connections.any (·.1 = id) = true := Taking.evidence.inj heq
      rcases hwork.1 with rfl | ⟨rfl, hinitiated⟩
      · exact hlater.proxyGone (hpurges id (by rw [hw]; rfl) hrecord)
      · exact hlater.initiated hinitiated
    | evidence taken =>
      cases taken with
      | true => exact htaken.setWork k _ ⟨ho, Truthful.later hlater (hwork.2 rfl)⟩
      | false => exact htaken.purgeNext k ho rest
  | purgeRecording outcome id rest =>
    rw [hw] at hwork
    have hpushed := h.push limit ⟨id, outcome⟩ hwork.2
    exact hpushed.purgeNext k (PurgeOutcome.later (s.push_later limit ⟨id, outcome⟩) hwork.1) rest
  | purged => exact h

theorem Honest.accept (h : s.Honest) (k : Nat) : (s.accept k).Honest := by
  unfold OutcomeState.accept
  split
  · next v scope hv hscope =>
    split
    · have hlater : Later s { s.setWork k (.inserting s.accepted.length) with accepted := s.accepted ++ [⟨k, v.name, scope⟩] } :=
        ⟨List.Subset.refl _, List.Subset.refl _, fun _ => id, List.prefix_append _ _, id⟩
      have hset := h.setWork k (.inserting s.accepted.length) trivial
      exact hset.later ⟨hlater.killed, hlater.cancelled, hlater.ended, hlater.accepted, hlater.initiated⟩ rfl rfl rfl
    · exact h
  · exact h

theorem Honest.step (h : s.Honest) (seed : UInt64) (limit : Nat) {op : OutcomeOp} (hok : s.Attributable op) :
    (s.step seed limit op).Honest := by
  cases op with
  | control op =>
    cases op with
    | begin request => exact h.withControl seed _
    | advance i bind => exact h.withControl seed _
    | supervisor k turn =>
      simp only [OutcomeState.step]
      split
      · exact (h.withControl seed _).later (.of_eq rfl rfl rfl rfl) rfl rfl rfl
      · exact h
  | accepted k => exact h.accept k
  | work k =>
    simp only [OutcomeState.step]
    split
    · exact h
    · next v _ => exact h.doWork seed limit k v hok
  | abort i =>
    simp only [OutcomeState.step]
    split
    · exact h
    · next t ht =>
      split
      · exact h.setTask ht trivial
      · exact h
  | kill id =>
    simp only [OutcomeState.step]
    split
    · exact h.later ⟨List.subset_cons_self _ _, List.Subset.refl _, fun _ he => he, List.prefix_refl _, fun hi => hi⟩ rfl rfl rfl
    · exact h
  | resetRead => exact h.later (.of_eq rfl rfl rfl rfl) rfl rfl rfl
  | resetCancel j =>
    exact h.later ⟨List.subset_append_right _ _, List.Subset.refl _, fun _ => id, List.prefix_refl _, id⟩ rfl rfl rfl
  | initiateShutdown =>
    exact h.later ⟨List.Subset.refl _, List.Subset.refl _, fun _ => id, List.prefix_refl _, fun _ => rfl⟩ rfl rfl rfl
  | cascadeShutdown =>
    simp only [OutcomeState.step]
    split
    · have hcascaded : ({ s with cascaded := true } : OutcomeState).Honest := h.later (.of_eq rfl rfl rfl rfl) rfl rfl rfl
      exact hcascaded.later (withControl_later _ (List.Subset.refl _) fun _ => id) rfl rfl rfl
    · exact h
  | observe i =>
    simp only [OutcomeState.step]
    split
    · exact h
    · next t ht => exact h.observed ht (hok t ht)
  | dial i result =>
    simp only [OutcomeState.step]
    split
    · exact h
    · next t ht => exact h.dialled ht result
  | opened i result =>
    simp only [OutcomeState.step]
    split
    · exact h
    · next t ht => exact h.openedStreams ht result
  | relay i e =>
    simp only [OutcomeState.step]
    split
    · exact h
    · next t ht => exact h.relayEnded ht e
  | drain i e =>
    simp only [OutcomeState.step]
    split
    · exact h
    · next t ht => exact h.drainEnded ht e
  | close i =>
    simp only [OutcomeState.step]
    split
    · exact h
    · next t ht => exact h.closeNext limit ht

theorem Honest.empty : OutcomeState.empty.Honest where
  tasks _ ht := absurd ht List.not_mem_nil
  works _ := trivial
  history _ hr := absurd hr List.not_mem_nil

/-- In every run in which no drain is interrupted but by a kill or a reset, and no
purge takes the record of a connection whose proxy and supervisor are there, each
recorded outcome is truthful. -/
theorem outcomes_truthful (seed : UInt64) (limit : Nat) (ops : List OutcomeOp)
    (hok : Along (fun s => OutcomeState.step s seed limit) Attributable .empty ops) :
    ∀ r ∈ (run (fun s => OutcomeState.step s seed limit) .empty ops).history,
      (run (fun s => OutcomeState.step s seed limit) .empty ops).Truthful r.id r.outcome := by
  have h : (run (fun s => OutcomeState.step s seed limit) .empty ops).Honest :=
    run_inv_along Honest (fun s op hs hattributable => hs.step seed limit hattributable) Honest.empty hok
  exact h.history

/-- Proxy `p` is imported and started. -/
def startedOps : List OutcomeOp :=
  [.control (.begin (.importDefinition plainSpec)), .control (.advance 0 (.error "")),
    .control (.begin (.setEnabled "p" true)), .control (.advance 1 (.error "")),
    .control (.advance 1 (.ok plainSpec.listen)), .control (.advance 1 (.error "")), .control (.advance 1 (.error ""))]

/-- Its connection is in its graceful drain. -/
def drainingOps : List OutcomeOp :=
  startedOps ++ [.control (.supervisor 0 .look), .accepted 0, .work 0, .work 0, .dial 0 (.ok ()), .opened 0 (.ok ()),
    .relay 0 (.requested .graceful .applied .applied)]

/-- The state after the operations, with a history of 16 records. -/
def afterOps (ops : List OutcomeOp) : OutcomeState := run (fun s => OutcomeState.step s 0 16) .empty ops

/-- The drain is interrupted by a kill. -/
def killedOps : List OutcomeOp := drainingOps ++ .kill 0 :: .observe 0 :: List.replicate 4 (.close 0)

theorem outcomes_truthful_killed :
    (afterOps killedOps).history = [⟨0, .killedByOperator⟩] ∧ 0 ∈ (afterOps killedOps).killed := by
  have htrue := outcomes_truthful 0 16 killedOps (by decide)
  refine ⟨by decide, htrue ⟨0, .killedByOperator⟩ ?_⟩
  decide

/-- The drain is interrupted since the proxy is disabled. -/
def disabledOps : List OutcomeOp :=
  drainingOps ++ .control (.begin (.setEnabled "p" false)) :: .control (.advance 2 (.error "")) :: .observe 0 ::
    List.replicate 4 (.close 0)

/-- The proxy is disabled and enabled again, and its new supervisor accepts a
connection before the old one purges. -/
def reenabledOps : List OutcomeOp :=
  startedOps ++ [.control (.supervisor 0 .look), .control (.begin (.setEnabled "p" false)), .control (.advance 2 (.error "")),
    .control (.begin (.setEnabled "p" true)), .control (.advance 3 (.error "")), .control (.advance 3 (.ok plainSpec.listen)),
    .control (.advance 3 (.error "")), .control (.advance 3 (.error "")), .control (.supervisor 1 .look), .accepted 1,
    .work 1, .work 1, .control (.supervisor 0 .observe)] ++ List.replicate 7 (.work 0)

/-- A connection that nobody killed is recorded as killed by the operator, and one
whose proxy is up and whose supervisor waits for more as removed with its proxy. -/
theorem outcomes_not_truthful :
    ((afterOps disabledOps).history = [⟨0, .killedByOperator⟩] ∧
      ¬ (afterOps disabledOps).Truthful 0 .killedByOperator) ∧
    (afterOps reenabledOps).history = [⟨0, .proxyRemoved⟩] ∧ ¬ (afterOps reenabledOps).Truthful 0 .proxyRemoved := by
  refine ⟨⟨by decide, ?_⟩, by decide, ?_⟩
  · have hkilled : (afterOps disabledOps).killed = [] := by decide
    rw [Truthful, hkilled]
    exact List.not_mem_nil
  · have hgone : (afterOps reenabledOps).proxyGone 0 = false := by decide
    rw [Truthful, hgone]
    exact Bool.false_ne_true

end OutcomeState

end Eggchaos
