import Eggchaos.DriverLemmas
/-!
# Runs that apply no event

A run that is cancelled before its first event, or whose first event fails
before its publication, has nothing to restore. Its cleanup still goes over all
the resources that were prepared, and with `restoreInitial` it publishes the
initial plan of each one that is where preparation found it: a new generation,
with the seed namespace of the cleanup. Only a resource that somebody else has
moved or removed in the meantime stays as it is.
-/

namespace Eggchaos
open Lib

namespace DriveState

/-- What an operation does to the target without the run. -/
def foreign (t : Target) : Op → Target
  | .external r plan seedNamespace grown => t.install r plan seedNamespace grown .external
  | .remove r => t.remove r
  | .reconfigured globalGeneration => { t with globalGeneration }
  | .due _ | .cancelled | .call _ _ => t

/-- The target as all the others alone would have left it. -/
def othersAlone (t : Target) (ops : List Op) : Target := run foreign t ops

variable (d : Drive) (s : DriveState)

/-- An event is published by this step. -/
def publishesEvent : Op → Bool
  | .call none _ =>
    match s.phase with
    | .publishing a _ expected => (s.target.cells a.event.action.resource).any (·.generation = expected)
    | _ => false
  | _ => false

/-- The cleanup has its publication answered for a resource that nobody has
moved or removed since the cleanup read its generation. -/
def restoresUnmoved : Op → Bool
  | .call none _ =>
    match s.phase with
    | .republishing entry current _ => (s.target.cells entry.resource).any (·.generation = current)
    | _ => false
  | _ => false

/-- A step of the run, with an answer from the target. -/
def Op.undisturbed : Op → Bool
  | .due _ | .cancelled | .call none _ => true
  | .call (some _) _ | .external _ _ _ _ | .remove _ | .reconfigured _ => false

variable {d s}

theorem foreign_of_isRun (t : Target) {op : Op} (h : op.isRun = true) : foreign t op = t := by
  cases op with
  | due now => rfl
  | cancelled => rfl
  | call refused grown => rfl
  | external r plan seedNamespace grown => cases h
  | remove r => cases h
  | reconfigured globalGeneration => cases h

/-- The steps of others do to the target of a run what they do without it. -/
theorem step_foreign {op : Op} (h : op.isRun = false) : (s.step d op).target = foreign s.target op := by
  cases op with
  | due now => cases h
  | cancelled => cases h
  | call refused grown => cases h
  | external r plan seedNamespace grown => rfl
  | remove r => rfl
  | reconfigured globalGeneration => rfl

theorem Publishes.publishesEvent {op : Op} {r : ScheduleResource} {cell : Cell} {a : Applying} {plan : TargetPlan}
    {expected : Nat} (h : Publishes d s op r cell a plan expected) : s.publishesEvent op = true := by
  obtain ⟨hphase, rfl, hfound, hgen, grown, rfl, -⟩ := h
  simp [DriveState.publishesEvent, hphase, hfound, hgen]

theorem Republishes.restoresUnmoved {op : Op} {r : ScheduleResource} {cell : Cell} {entry : OwnedResource}
    {current : Nat} {todo : List OwnedResource} (h : Republishes d s op r cell entry current todo) :
    s.restoresUnmoved op = true := by
  obtain ⟨hphase, rfl, hfound, hgen, grown, rfl, -⟩ := h
  simp [DriveState.restoresUnmoved, hphase, hfound, hgen]

/-- A quiet step does nothing of its own to the target. -/
theorem step_quiet {op : Op} (hevent : s.publishesEvent op = false) (hrestore : s.restoresUnmoved op = false) :
    (s.step d op).target = foreign s.target op := by
  cases hrun : op.isRun with
  | false => exact step_foreign hrun
  | true =>
    rw [foreign_of_isRun _ hrun]
    rcases run_step_target s hrun with hsame | ⟨r, cell, a, plan, expected, hp⟩ | ⟨r, cell, entry, current, todo, hp⟩
    · exact hsame
    · rw [hp.publishesEvent] at hevent
      cases hevent
    · rw [hp.restoresUnmoved] at hrestore
      cases hrestore

theorem any_generation {cell? : Option Cell} {generation : Nat}
    (h : cell?.any (fun cell => decide (cell.generation = generation)) = true) :
    ∃ cell, cell? = some cell ∧ cell.generation = generation := by
  cases cell? with
  | none => cases h
  | some cell => exact ⟨cell, rfl, of_decide_eq_true h⟩

/-- A restore that goes through uses up a generation of its resource. -/
theorem step_restores {op : Op} (h : s.restoresUnmoved op = true) :
    ∃ r, (foreign s.target op).top r < (s.step d op).target.top r := by
  unfold restoresUnmoved at h
  split at h
  · split at h
    · next grown entry current todo hphase =>
      obtain ⟨cell, hcell, hgen⟩ := any_generation h
      refine ⟨entry.resource, ?_⟩
      simp only [foreign, step, onCall, hphase, onRepublish, Target.publish, Target.read, hcell, hgen, ne_eq,
        not_true_eq_false, if_false, noteCleanup_target, Target.install, if_true]
      omega
    · cases h
  · cases h

/-- Generations used up stay used up. -/
theorem step_top {op : Op} {t : Target} {r : ScheduleResource} (h : t.top r < s.target.top r) :
    (foreign t op).top r < (s.step d op).target.top r := by
  have hinstall : ∀ r' plan ns grown origin, s.target.top r ≤ (s.target.install r' plan ns grown origin).top r := by
    intro r' plan ns grown origin
    simp only [Target.install]
    split
    · next hr => subst hr; omega
    · exact le_refl _
  cases hrun : op.isRun with
  | false =>
    rw [step_foreign hrun]
    cases op with
    | due now => cases hrun
    | cancelled => cases hrun
    | call refused grown => cases hrun
    | external r' plan seedNamespace grown =>
      by_cases hr : r = r'
      · subst hr
        simp only [foreign, Target.install, if_true]
        omega
      · simpa only [foreign, Target.install, if_neg hr] using h
    | remove r' => exact h
    | reconfigured globalGeneration => exact h
  | true =>
    rw [foreign_of_isRun _ hrun]
    refine lt_of_lt_of_le h ?_
    rcases run_step_target s hrun with hsame | ⟨r', cell, a, plan, expected, hp⟩ | ⟨r', cell, entry, current, todo, hp⟩
    · rw [hsame]
    · obtain ⟨grown, -, htarget⟩ := hp.target
      rw [htarget]
      exact hinstall _ _ _ _ _
    · obtain ⟨grown, -, htarget⟩ := hp.target
      rw [htarget]
      exact hinstall _ _ _ _ _

theorem run_top {t : Target} {r : ScheduleResource} (h : t.top r < s.target.top r) (ops : List Op) :
    (othersAlone t ops).top r < (run (fun s op => s.step d op) s ops).target.top r := by
  induction ops generalizing s t with
  | nil => exact h
  | cons op ops ih => exact ih (step_top h)

/-- A run without events leaves the target to the others exactly when none of
its restores goes through. -/
theorem run_quiet_iff {ops : List Op}
    (hquiet : Along (fun s op => s.step d op) (fun s op => s.publishesEvent op = false) s ops) :
    (run (fun s op => s.step d op) s ops).target = othersAlone s.target ops ↔
      Along (fun s op => s.step d op) (fun s op => s.restoresUnmoved op = false) s ops := by
  induction ops generalizing s with
  | nil => exact ⟨fun _ => trivial, fun _ => rfl⟩
  | cons op ops ih =>
    have hrest := ih hquiet.2
    cases hrestore : s.restoresUnmoved op with
    | false =>
      rw [step_quiet hquiet.1 hrestore] at hrest
      exact hrest.trans ⟨fun h => ⟨hrestore, h⟩, fun h => h.2⟩
    | true =>
      obtain ⟨r, hr⟩ := step_restores (d := d) hrestore
      constructor
      · intro heq
        have hlt := run_top (d := d) hr ops
        have : (run (fun s op => s.step d op) s (op :: ops)).target.top r = (othersAlone s.target (op :: ops)).top r := by
          rw [heq]
        simp only [othersAlone, run_cons] at this hlt
        omega
      · intro h
        rw [h.1] at hrestore
        cases hrestore

theorem undisturbed_isRun {op : Op} (h : op.undisturbed = true) : op.isRun = true := by
  cases op with
  | due now => rfl
  | cancelled => rfl
  | call refused grown => rfl
  | external r plan seedNamespace grown => cases h
  | remove r => cases h
  | reconfigured globalGeneration => cases h

theorem othersAlone_undisturbed (t : Target) {ops : List Op} (h : ∀ op ∈ ops, op.undisturbed = true) :
    othersAlone t ops = t := by
  induction ops generalizing t with
  | nil => rfl
  | cons op ops ih =>
    rw [othersAlone, run_cons, foreign_of_isRun _ (undisturbed_isRun (h op (by simp)))]
    exact ih t fun op' hop' => h op' (by simp [hop'])

/-! ## Up to the cleanup -/

/-- The first event is not applied yet, or its publication is not answered. -/
def Early (s : DriveState) : Prop :=
  match s.phase with
  | .waiting _ | .snapshotting _ | .readingGeneration _ _ | .publishing _ _ _ => True
  | .readingSibling _ _ | .restoring _ _ | .republishing _ _ _ | .finished => False

/-- The step stays before the first publication, or begins the cleanup with
what was prepared. -/
def BeginsCleanup (d : Drive) (s s' : DriveState) : Prop :=
  (s'.Early ∧ s'.target = s.target ∧ s'.owned = s.owned) ∨
    ∃ s₁ status, s' = enterCleanup d s₁ status ∧ s₁.target = s.target ∧ s₁.owned = s.owned

theorem fail_begins (s : DriveState) (reason : String) : BeginsCleanup d s (s.fail d reason) :=
  .inr ⟨{ s with failure := some reason }, _, rfl, rfl, rfl⟩

theorem expect_begins (s : DriveState) (a : Applying) (plan : TargetPlan) : BeginsCleanup d s (s.expect d a plan) := by
  unfold expect
  split
  · exact .inl ⟨trivial, rfl, rfl⟩
  · exact .inl ⟨trivial, rfl, rfl⟩

theorem begin_begins (s : DriveState) (now : Nat) (event : CompiledEventV2) (rest : List CompiledEventV2) :
    BeginsCleanup d s (s.begin d now event rest) := by
  unfold begin
  split
  · split
    · exact fail_begins s _
    · exact expect_begins s _ _
  · split
    · exact fail_begins s _
    · exact expect_begins s _ _
  · exact .inl ⟨trivial, rfl, rfl⟩
  · exact .inl ⟨trivial, rfl, rfl⟩

theorem call_begins (h : s.Early) {refused : Option TargetError} {grown : Nat}
    (hevent : s.publishesEvent (.call refused grown) = false) : BeginsCleanup d s (s.onCall d refused grown) := by
  have hearly := h
  unfold Early at h
  unfold onCall
  cases hp : s.phase with
  | waiting events => exact .inl ⟨hearly, rfl, rfl⟩
  | finished => rw [hp] at h; exact h.elim
  | readingSibling a generation => rw [hp] at h; exact h.elim
  | restoring entry todo => rw [hp] at h; exact h.elim
  | republishing entry current todo => rw [hp] at h; exact h.elim
  | snapshotting a =>
    simp only [onSnapshot]
    split
    · exact fail_begins s _
    · split
      · exact fail_begins s _
      · split
        · exact expect_begins s _ _
        · exact .inl ⟨trivial, rfl, rfl⟩
  | readingGeneration a plan =>
    simp only [onGeneration]
    split
    · exact fail_begins s _
    · exact .inl ⟨trivial, rfl, rfl⟩
  | publishing a plan expected =>
    simp only [onPublish]
    rcases s.target.publish_cases refused a.event.action.resource expected plan
      (eventNamespace d a.event.compiledIndex) grown with ⟨e, he, -⟩ | ⟨cell, hcell, hgen, rfl, -⟩
    · simp only [he]
      exact fail_begins s _
    · simp [publishesEvent, hp, hcell, hgen] at hevent

theorem step_begins (h : s.Early) {op : Op} (hrun : op.isRun = true) (hevent : s.publishesEvent op = false) :
    BeginsCleanup d s (s.step d op) := by
  cases op with
  | external r plan seedNamespace grown => cases hrun
  | remove r => cases hrun
  | reconfigured globalGeneration => cases hrun
  | call refused grown => exact call_begins h hevent
  | due now =>
    simp only [step]
    split
    · split
      · exact begin_begins s _ _ _
      · exact .inl ⟨h, rfl, rfl⟩
    · exact .inl ⟨h, rfl, rfl⟩
  | cancelled =>
    simp only [step]
    split
    · exact .inr ⟨s, _, rfl, rfl, rfl⟩
    · exact .inl ⟨h, rfl, rfl⟩

/-! ## The two cleanups -/

/-- A finished run makes no steps of its own. -/
theorem step_finished (h : s.phase = .finished) (op : Op) : (s.step d op).phase = .finished := by
  cases op with
  | due now => simp [step, h]
  | cancelled => simp [step, h]
  | call refused grown => simp [step, onCall, h]
  | external r plan seedNamespace grown => exact h
  | remove r => exact h
  | reconfigured globalGeneration => exact h

theorem finished_restores_nothing (h : s.phase = .finished) (op : Op) : s.restoresUnmoved op = false := by
  unfold restoresUnmoved
  rw [h]
  split <;> rfl

theorem early_restores_nothing (h : s.Early) (op : Op) : s.restoresUnmoved op = false := by
  unfold Early at h
  unfold restoresUnmoved
  split
  · split
    · next hp => rw [hp] at h; exact h.elim
    · rfl
  · rfl

/-- With `leave` a run goes from its events to its end. -/
theorem step_leaves (hclean : d.compiled.cleanup = .leave) (h : s.Early ∨ s.phase = .finished) {op : Op}
    (hevent : s.publishesEvent op = false) : (s.step d op).Early ∨ (s.step d op).phase = .finished := by
  rcases h with h | h
  · cases hrun : op.isRun with
    | false =>
      left
      unfold Early at h ⊢
      cases op with
      | due now => cases hrun
      | cancelled => cases hrun
      | call refused grown => cases hrun
      | external r plan seedNamespace grown => exact h
      | remove r => exact h
      | reconfigured globalGeneration => exact h
    | true =>
      rcases step_begins h hrun hevent with ⟨hearly, -⟩ | ⟨s₁, status, heq, -⟩
      · exact .inl hearly
      · right
        rw [heq, enterCleanup, hclean]
  · exact .inr (step_finished h op)

theorem leave_restores_nothing (hclean : d.compiled.cleanup = .leave) (h : s.Early ∨ s.phase = .finished) {ops : List Op}
    (hquiet : Along (fun s op => s.step d op) (fun s op => s.publishesEvent op = false) s ops) :
    Along (fun s op => s.step d op) (fun s op => s.restoresUnmoved op = false) s ops := by
  induction ops generalizing s with
  | nil => trivial
  | cons op ops ih =>
    refine ⟨?_, ih (step_leaves hclean h hquiet.1) hquiet.2⟩
    rcases h with h | h
    · exact early_restores_nothing h op
    · exact finished_restores_nothing h op

/-- How far a run with `restoreInitial` gets that publishes nothing on an
undisturbed target: not past its first restore, which would go through. -/
structure Stuck (t : Target) (prepared : Owned) (s : DriveState) : Prop where
  target : s.target = t
  owned : s.owned = prepared
  phase : s.Early ∨ (∃ entry todo, s.phase = .restoring entry todo ∧ entry ∈ prepared.map (·.2)) ∨
    ∃ entry current todo cell, s.phase = .republishing entry current todo ∧ t.cells entry.resource = some cell ∧
      cell.generation = current

theorem enterCleanup_stuck {t : Target} {prepared : Owned} (hclean : d.compiled.cleanup = .restoreInitial)
    (hne : prepared ≠ []) (htarget : s.target = t) (howned : s.owned = prepared) (status : ScheduleRunStatus) :
    Stuck t prepared (s.enterCleanup d status) := by
  obtain ⟨⟨key, entry⟩, rest, rfl⟩ := List.exists_cons_of_ne_nil hne
  simp only [enterCleanup, hclean, howned, List.map_cons, restoreNext]
  exact ⟨htarget, rfl, .inr (.inl ⟨entry, rest.map (·.2), rfl, by simp⟩)⟩

theorem step_stuck {t : Target} {prepared : Owned} (hclean : d.compiled.cleanup = .restoreInitial)
    (hne : prepared ≠ []) (hcollected : Collected t prepared) (h : Stuck t prepared s) {op : Op}
    (hop : op.undisturbed = true) (hevent : s.publishesEvent op = false) (hrestore : s.restoresUnmoved op = false) :
    Stuck t prepared (s.step d op) := by
  have hrun : op.isRun = true := undisturbed_isRun hop
  obtain ⟨htarget, howned, hearly | ⟨entry, todo, hphase, hmem⟩ | ⟨entry, current, todo, cell, hphase, hcell, hgen⟩⟩ := h
  · rcases step_begins hearly hrun hevent with ⟨hearly', htarget', howned'⟩ | ⟨s₁, status, heq, htarget', howned'⟩
    · exact ⟨htarget'.trans htarget, howned'.trans howned, .inl hearly'⟩
    · rw [heq]
      exact enterCleanup_stuck hclean hne (htarget'.trans htarget) (howned'.trans howned) status
  · cases op with
    | external r plan seedNamespace grown => cases hop
    | remove r => cases hop
    | reconfigured globalGeneration => cases hop
    | due now => simpa [step, hphase] using ⟨htarget, howned, .inr (.inl ⟨entry, todo, hphase, hmem⟩)⟩
    | cancelled => simpa [step, hphase] using ⟨htarget, howned, .inr (.inl ⟨entry, todo, hphase, hmem⟩)⟩
    | call refused grown =>
      cases refused with
      | some e => cases hop
      | none =>
        obtain ⟨cell, hcell, hgen, -⟩ := hcollected.cells entry hmem
        simp only [step, onCall, hphase, onRestore, Target.read, htarget, hcell, hgen, ne_eq, not_true_eq_false,
          if_false]
        exact ⟨rfl, howned, .inr (.inr ⟨entry, _, todo, cell, rfl, hcell, hgen⟩)⟩
  · cases op with
    | external r plan seedNamespace grown => cases hop
    | remove r => cases hop
    | reconfigured globalGeneration => cases hop
    | due now =>
      simpa [step, hphase] using ⟨htarget, howned, .inr (.inr ⟨entry, current, todo, cell, hphase, hcell, hgen⟩)⟩
    | cancelled =>
      simpa [step, hphase] using ⟨htarget, howned, .inr (.inr ⟨entry, current, todo, cell, hphase, hcell, hgen⟩)⟩
    | call refused grown =>
      cases refused with
      | some e => cases hop
      | none => simp [restoresUnmoved, hphase, htarget, hcell, hgen] at hrestore

theorem start_stuck {t : Target} {prepared : Owned} (hevents : d.compiled.events ≠ []) :
    Stuck t prepared (start d t prepared) := by
  obtain ⟨event, rest, heq⟩ := List.exists_cons_of_ne_nil hevents
  exact ⟨next_target _ _, by simp [start, heq, next], .inl (by simp [start, heq, next, Early])⟩

/-- The run gets no further than its first restore. -/
theorem Stuck.not_finished {t : Target} {prepared : Owned} (h : Stuck t prepared s) : s.phase ≠ .finished := by
  intro hfinished
  rcases h.phase with h | ⟨entry, todo, h, -⟩ | ⟨entry, current, todo, cell, h, -⟩
  · unfold Early at h
    rw [hfinished] at h
    exact h
  · rw [hfinished] at h
    cases h
  · rw [hfinished] at h
    cases h

/-- A schedule without events that prepared nothing is over at once. -/
theorem start_empty_finished {t : Target} (hempty : d.compiled.events = []) : (start d t []).phase = .finished := by
  simp only [start, hempty, next, enterCleanup]
  cases d.compiled.cleanup <;> rfl

end DriveState

open DriveState in
/-- A run of which no event is published, prepared on any target: the target is
as the others alone would have left it exactly when no restore of the cleanup
gets to a resource that is still where the run read it. On a target that
answers every call and that nobody else touches, the finished run leaves
everything as it was exactly when its cleanup policy is `leave` or it has no
event. -/
theorem quiet_run_publishes_nothing_iff (d : Drive) (capabilities : TargetCapabilities)
    (policies : ScheduleResource → Option (Nat × TargetPlan × UInt64)) (global : Nat) (owned : Owned)
    (hprepared : prepareInitial capabilities (.before policies global) d.compiled = .ok owned) (ops : List Op)
    (hquiet : Along (fun s op => s.step d op) (fun s op => s.publishesEvent op = false)
      (start d (.before policies global) owned) ops) :
    let t₀ := Target.before policies global
    let s := after d t₀ owned ops
    (s.target = othersAlone t₀ ops ↔
        Along (fun s op => s.step d op) (fun s op => s.restoresUnmoved op = false) (start d t₀ owned) ops) ∧
      (s.phase = .finished → (∀ op ∈ ops, op.undisturbed = true) →
        (s.target = t₀ ↔ d.compiled.cleanup = .leave ∨ d.compiled.events = [])) := by
  intro t₀ s
  have hiff : s.target = othersAlone t₀ ops ↔
      Along (fun s op => s.step d op) (fun s op => s.restoresUnmoved op = false) (start d t₀ owned) ops := by
    have hstart : (start d t₀ owned).target = t₀ := next_target _ _
    have h := run_quiet_iff hquiet
    rwa [hstart] at h
  refine ⟨hiff, ?_⟩
  intro hfinished hundisturbed
  rw [othersAlone_undisturbed t₀ hundisturbed] at hiff
  obtain ⟨hcollected, -, hcovered⟩ := prepareFrom_collected (show Collected _ [] from ⟨⟨by simp, by simp⟩, by simp⟩) hprepared
  rw [hiff]
  constructor
  · intro hrestores
    by_contra hnot
    obtain ⟨hclean, hevents⟩ := not_or.1 hnot
    have hrestore : d.compiled.cleanup = .restoreInitial := by
      cases h : d.compiled.cleanup with
      | restoreInitial => rfl
      | leave => exact absurd h hclean
    have hne : owned ≠ [] := by
      rintro rfl
      obtain ⟨event, rest, heq⟩ := List.exists_cons_of_ne_nil hevents
      have := hcovered event (by rw [heq]; simp)
      cases this
    have hstuck : Stuck t₀ owned s := by
      refine run_inv_along (Stuck t₀ owned) ?_ (start_stuck hevents) ((hquiet.and hrestores).and_forall hundisturbed)
      rintro s op h ⟨hop, hevent, hr⟩
      exact step_stuck hrestore hne hcollected h hop hevent hr
    exact hstuck.not_finished hfinished
  · intro h
    rcases h with hleave | hempty
    · refine leave_restores_nothing hleave ?_ hquiet
      cases hevents : d.compiled.events with
      | nil => exact .inr (by simp [start, hevents, next, enterCleanup, hleave])
      | cons event rest => exact .inl (by simp [start, hevents, next, Early])
    · have howned : owned = [] := by
        simp only [prepareInitial, hempty, prepareFrom, Except.ok.injEq] at hprepared
        exact hprepared.symm
      subst howned
      exact along_of_inv (fun s : DriveState => s.phase = .finished) (fun s op h => step_finished h op)
        (fun s op h => finished_restores_nothing h op) (start_empty_finished hempty) ops

open DriveState in
/-- Cancelled before its first event, a run that leaves everything: it publishes
nothing. -/
theorem quiet_run_publishes_nothing_left :
    let d := { removalDrive with compiled := { removalDrive.compiled with cleanup := .leave } }
    (after d (.before apiPolicies 1) apiOwned [.cancelled]).phase = .finished ∧
      (after d (.before apiPolicies 1) apiOwned [.cancelled]).target = .before apiPolicies 1 := by
  intro d
  have hfinished : (after d (.before apiPolicies 1) apiOwned [.cancelled]).phase = .finished := by decide
  have h := quiet_run_publishes_nothing_iff d ⟨true, false⟩ apiPolicies 1 apiOwned rfl [.cancelled]
    (by decide)
  exact ⟨hfinished, (h.2 hfinished (by decide)).2 (.inl rfl)⟩

open DriveState in
/-- Cancelled before its first event, a run that restores: the resource gets a new
generation and the seed namespace of the cleanup. -/
theorem cancelled_run_publishes :
    ∃ (d : Drive) (owned : Owned) (ops : List Op),
      prepareInitial ⟨true, false⟩ (.before apiPolicies 1) d.compiled = .ok owned ∧
      Along (fun s op => s.step d op) (fun s op => s.publishesEvent op = false)
        (start d (.before apiPolicies 1) owned) ops ∧
      (after d (.before apiPolicies 1) owned ops).phase = .finished ∧
      (after d (.before apiPolicies 1) owned ops).target.cells apiUpstream ≠
        (othersAlone (.before apiPolicies 1) ops).cells apiUpstream := by
  refine ⟨removalDrive, apiOwned, [.cancelled, .call none 0, .call none 0], rfl, by decide, by decide, ?_⟩
  decide

end Eggchaos
