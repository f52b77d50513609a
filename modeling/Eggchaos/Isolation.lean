import Eggchaos.DriverLemmas
/-!
# Strict isolation

A strict run keeps what others publish. It expects for every resource the
generation it owns: the one it prepared from, then the one of its own last
publication. Generations are never used twice, so a resource at that generation
holds the run's own plan and any other generation means that somebody else has
published since (`Tracks`). Every publication of the run is a compare and set
on the owned generation, hence never replaces somebody else's plan.
-/

namespace Eggchaos
open Lib

/-! ## Ownership -/

/-- The owned generation of a resource: a cell at that generation is the run's
own or the one it found, and any other cell is somebody else's and newer. -/
structure Tracks (t : Target) (own : ScheduleResource → Option TargetPlan) (o : OwnedResource) : Prop where
  le_top : o.lastOwnedGeneration ≤ t.top o.resource
  cell : ∀ cell, t.cells o.resource = some cell →
    (cell.generation = o.lastOwnedGeneration ∧ cell.origin ≠ .external ∧ own o.resource = some cell.plan) ∨
      (o.lastOwnedGeneration < cell.generation ∧ cell.origin = .external)

/-- The entries a run still publishes for: all tracked, with the plans from
before the run, each resource once. -/
structure Entries (t₀ t : Target) (own : ScheduleResource → Option TargetPlan) (entries : List OwnedResource) :
    Prop where
  tracks : ∀ o ∈ entries, Tracks t own o
  initial : ∀ o ∈ entries, (t₀.cells o.resource).map (·.plan) = some o.initialPlan
  nodup : (entries.map (·.resource)).Nodup

namespace Entries

variable {t₀ t : Target} {own : ScheduleResource → Option TargetPlan} {entries : List OwnedResource}

/-- Somebody else's publication. -/
theorem external (h : Entries t₀ t own entries) (r : ScheduleResource) (plan : TargetPlan) (seedNamespace : UInt64)
    (grown : Nat) : Entries t₀ (t.install r plan seedNamespace grown .external) own entries := by
  refine ⟨?_, h.initial, h.nodup⟩
  intro o ho
  obtain ⟨hle, hcell⟩ := h.tracks o ho
  by_cases hr : o.resource = r
  · subst hr
    refine ⟨by simp only [Target.install, if_true]; omega, ?_⟩
    intro cell hc
    simp only [Target.install, if_true, Option.some.injEq] at hc
    subst hc
    exact .inr ⟨by simp only; omega, rfl⟩
  · refine ⟨by simpa only [Target.install, if_neg hr] using hle, ?_⟩
    intro cell hc
    simp only [Target.install, if_neg hr] at hc
    exact hcell cell hc

theorem removed (h : Entries t₀ t own entries) (r : ScheduleResource) : Entries t₀ (t.remove r) own entries := by
  refine ⟨?_, h.initial, h.nodup⟩
  intro o ho
  obtain ⟨hle, hcell⟩ := h.tracks o ho
  refine ⟨hle, ?_⟩
  intro cell hc
  by_cases hr : o.resource = r
  · simp [Target.remove, hr] at hc
  · simp only [Target.remove, if_neg hr] at hc
    exact hcell cell hc

/-- The run's own publication to `r`, whose entry moves on with it. -/
theorem published (h : Entries t₀ t own entries) (r : ScheduleResource) (plan : TargetPlan) (seedNamespace : UInt64)
    (grown : Nat) :
    Entries t₀ (t.install r plan seedNamespace grown .run) (fun r' => if r' = r then some plan else own r')
      (entries.map (OwnedResource.advance r (t.top r + 1 + grown))) := by
  refine ⟨?_, ?_, ?_⟩
  · intro o' ho'
    obtain ⟨o, ho, rfl⟩ := List.mem_map.1 ho'
    obtain ⟨hle, hcell⟩ := h.tracks o ho
    unfold OwnedResource.advance
    by_cases hr : o.resource = r
    · rw [if_pos hr]
      refine ⟨by simp [Target.install, hr], ?_⟩
      intro cell hc
      simp only [Target.install, hr, if_true, Option.some.injEq] at hc
      subst hc
      exact .inl ⟨rfl, by simp, by simp [hr]⟩
    · rw [if_neg hr]
      refine ⟨by simpa only [Target.install, if_neg hr] using hle, ?_⟩
      intro cell hc
      simp only [Target.install, if_neg hr] at hc ⊢
      exact hcell cell hc
  · intro o' ho'
    obtain ⟨o, ho, rfl⟩ := List.mem_map.1 ho'
    have hplan : (OwnedResource.advance r (t.top r + 1 + grown) o).initialPlan = o.initialPlan := by
      unfold OwnedResource.advance
      split <;> rfl
    rw [OwnedResource.advance_resource, hplan]
    exact h.initial o ho
  · rw [List.map_map]
    have : (fun o : OwnedResource => o.resource) ∘ OwnedResource.advance r (t.top r + 1 + grown) =
        fun o => o.resource := by
      funext o
      exact OwnedResource.advance_resource r _ o
    rw [this]
    exact h.nodup

/-- The run's own publication to a resource that it no longer tracks. -/
theorem restored {entry : OwnedResource} (h : Entries t₀ t own (entry :: entries)) (plan : TargetPlan)
    (seedNamespace : UInt64) (grown : Nat) :
    Entries t₀ (t.install entry.resource plan seedNamespace grown .run)
      (fun r => if r = entry.resource then some plan else own r) entries := by
  obtain ⟨hnot, hnodup⟩ := List.nodup_cons.1 h.nodup
  refine ⟨?_, fun o ho => h.initial o (List.mem_cons_of_mem _ ho), hnodup⟩
  intro o ho
  obtain ⟨hle, hcell⟩ := h.tracks o (List.mem_cons_of_mem _ ho)
  have hr : o.resource ≠ entry.resource := by
    intro heq
    exact hnot (List.mem_map.2 ⟨o, ho, heq⟩)
  refine ⟨by simpa only [Target.install, if_neg hr] using hle, ?_⟩
  intro cell hc
  simp only [Target.install, if_neg hr] at hc ⊢
  exact hcell cell hc

theorem tail {entry : OwnedResource} (h : Entries t₀ t own (entry :: entries)) : Entries t₀ t own entries where
  tracks o ho := h.tracks o (List.mem_cons_of_mem _ ho)
  initial o ho := h.initial o (List.mem_cons_of_mem _ ho)
  nodup := (List.nodup_cons.1 h.nodup).2

end Entries

/-! ## The invariant of a strict run -/

/-- The fault id an action removes. -/
def ScenarioAction.removes : ScenarioAction → Option String
  | .removeFault _ _ id | .removeDatagramFault _ _ id => some id
  | .setPlan _ _ _ | .setDatagramPlan _ _ _ => none

namespace DriveState

variable {d : Drive} {t₀ : Target} {prepared : List ScheduleResource} {s : DriveState}

/-- While events are applied: the owned map is keyed and tracks the prepared
resources, with an entry for every event still to come, and none is recorded. -/
structure Owning (t₀ : Target) (prepared : List ScheduleResource) (s : DriveState) (events : List CompiledEventV2) :
    Prop where
  keyed : s.owned.Keyed
  entries : Entries t₀ s.target s.own (s.owned.map (·.2))
  covered : ∀ event ∈ events, (s.owned.get event.action.resource.key).isSome
  resources : s.owned.map (·.2.resource) = prepared
  unrecorded : s.cleanup = []

/-- While resources are restored: those left are tracked, and every prepared one
is recorded or left. -/
structure Restoring (t₀ : Target) (prepared : List ScheduleResource) (s : DriveState) (left : List OwnedResource) :
    Prop where
  entries : Entries t₀ s.target s.own left
  recorded : s.cleanup.map (·.resource) ++ left.map (·.resource) = prepared

/-- The publication of this plan expects the owned generation, and a plan made
by a removal is made from the cell of that generation. -/
structure Ready (s : DriveState) (a : Applying) (plan : TargetPlan) (expected : Nat) : Prop where
  owned : ∃ o, s.owned.get a.event.action.resource.key = some o ∧ o.lastOwnedGeneration = expected
  removal : ∀ id, a.event.action.removes = some id → ∀ cell, s.target.cells a.event.action.resource = some cell →
    cell.generation = expected → plan = cell.plan.without id

def Isolated (t₀ : Target) (prepared : List ScheduleResource) (s : DriveState) : Prop :=
  match s.phase with
  | .waiting events => Owning t₀ prepared s events
  | .snapshotting a => Owning t₀ prepared s (a.event :: a.rest)
  | .readingGeneration _ _ => False
  | .publishing a plan expected => Owning t₀ prepared s (a.event :: a.rest) ∧ Ready s a plan expected
  | .readingSibling a _ => Owning t₀ prepared s a.rest
  | .restoring entry todo => Restoring t₀ prepared s (entry :: todo)
  | .republishing entry current todo =>
    Restoring t₀ prepared s (entry :: todo) ∧ current = entry.lastOwnedGeneration
  | .finished => s.cleanup.map (·.resource) = prepared

theorem Owning.tail {event : CompiledEventV2} {events : List CompiledEventV2} (h : Owning t₀ prepared s (event :: events)) :
    Owning t₀ prepared s events :=
  ⟨h.keyed, h.entries, fun e he => h.covered e (List.mem_cons_of_mem _ he), h.resources, h.unrecorded⟩

theorem restoreNext_isolated {left : List OwnedResource} (h : Restoring t₀ prepared s left) :
    (s.restoreNext left).Isolated t₀ prepared := by
  cases left with
  | nil =>
    have := h.recorded
    rwa [List.map_nil, List.append_nil] at this
  | cons entry todo => exact ⟨h.entries, h.recorded⟩

theorem enterCleanup_isolated {events : List CompiledEventV2} (h : Owning t₀ prepared s events) (status : ScheduleRunStatus) :
    (s.enterCleanup d status).Isolated t₀ prepared := by
  unfold enterCleanup
  cases d.compiled.cleanup with
  | leave =>
    show (s.owned.map fun owned => (⟨owned.2.resource, .notRequested⟩ : CleanupResourceRecord)).map (·.resource) =
      prepared
    rw [List.map_map, ← h.resources]
    rfl
  | restoreInitial =>
    refine restoreNext_isolated (s := { s with status }) ⟨h.entries, ?_⟩
    rw [← h.resources, List.map_map]
    simp only [h.unrecorded]
    rfl

theorem fail_isolated {events : List CompiledEventV2} (h : Owning t₀ prepared s events) (reason : String) :
    (s.fail d reason).Isolated t₀ prepared :=
  enterCleanup_isolated
    (show Owning t₀ prepared { s with failure := some reason } events from
      ⟨h.keyed, h.entries, h.covered, h.resources, h.unrecorded⟩) _

theorem next_isolated {events : List CompiledEventV2} (h : Owning t₀ prepared s events) : (s.next d events).Isolated t₀ prepared := by
  cases events with
  | nil => exact enterCleanup_isolated h _
  | cons event rest => exact ⟨h.keyed, h.entries, h.covered, h.resources, h.unrecorded⟩

/-- A strict run never asks the target for the generation it expects. -/
theorem expect_isolated (hstrict : strict d = true) {a : Applying} (h : Owning t₀ prepared s (a.event :: a.rest))
    {plan : TargetPlan}
    (hplan : ∀ o, s.owned.get a.event.action.resource.key = some o → Ready s a plan o.lastOwnedGeneration) :
    (s.expect d a plan).Isolated t₀ prepared := by
  have hcovered := h.covered a.event (by simp)
  obtain ⟨o, ho⟩ := Option.isSome_iff_exists.1 hcovered
  have hready := hplan o ho
  simp only [expect, hstrict, ho]
  exact ⟨⟨h.keyed, h.entries, h.covered, h.resources, h.unrecorded⟩, hready.owned, hready.removal⟩

theorem begin_isolated (hstrict : strict d = true) {event : CompiledEventV2} {rest : List CompiledEventV2}
    (h : Owning t₀ prepared s (event :: rest)) (now : Nat) : (s.begin d now event rest).Isolated t₀ prepared := by
  have hready : ∀ plan o, event.action.removes = none → s.owned.get event.action.resource.key = some o →
      Ready s ⟨event, min (now - d.epoch) u64Max, rest⟩ plan o.lastOwnedGeneration := by
    intro plan o hnone ho
    refine ⟨⟨o, ho, rfl⟩, ?_⟩
    intro id hid
    rw [hnone] at hid
    cases hid
  unfold begin
  cases haction : event.action with
  | setPlan proxy direction faults =>
    simp only
    split
    · exact fail_isolated h _
    · exact expect_isolated hstrict h fun o => hready _ o (by rw [haction]; rfl)
  | setDatagramPlan proxy direction faults =>
    simp only
    split
    · exact fail_isolated h _
    · exact expect_isolated hstrict h fun o => hready _ o (by rw [haction]; rfl)
  | removeFault proxy direction id => exact ⟨h.keyed, h.entries, h.covered, h.resources, h.unrecorded⟩
  | removeDatagramFault proxy direction id => exact ⟨h.keyed, h.entries, h.covered, h.resources, h.unrecorded⟩

/-- A removal takes the fault out of the plan it found. -/
theorem removal_ok {action : ScenarioAction} {found plan : TargetPlan} (h : removal action found = .ok plan) :
    ∀ id, action.removes = some id → plan = found.without id := by
  intro id hid
  unfold removal at h
  split at h
  · split at h
    · cases h
    · cases h; cases hid; rfl
  · split at h
    · cases h
    · split at h
      · cases h
      · next hnew =>
        cases h
        cases hid
        unfold DatagramPlan.new at hnew
        split at hnew
        · cases hnew
        · cases hnew; rfl
  · cases h

theorem onSnapshot_isolated (hstrict : strict d = true) {a : Applying} (h : Owning t₀ prepared s (a.event :: a.rest))
    (refused : Option TargetError) : (s.onSnapshot d a refused).Isolated t₀ prepared := by
  unfold onSnapshot
  split
  · exact fail_isolated h _
  · next cell hread =>
    have hcell : s.target.cells a.event.action.resource = some cell := by
      unfold Target.read at hread
      split at hread
      · cases hread
      · cases hread
      · next hc => cases hread; exact hc
    split
    · exact fail_isolated h _
    · next plan hremoval =>
      rw [if_pos hstrict]
      refine expect_isolated hstrict h fun o ho => ⟨⟨o, ho, rfl⟩, ?_⟩
      intro id hid cell' hcell' _
      rw [hcell] at hcell'
      cases hcell'
      exact removal_ok hremoval id hid

theorem record_isolated {a : Applying} (h : Owning t₀ prepared s a.rest) (upstream downstream : Nat) :
    (s.record d a upstream downstream).Isolated t₀ prepared :=
  next_isolated (s := { s with applied := _, events := _ }) ⟨h.keyed, h.entries, h.covered, h.resources, h.unrecorded⟩

/-- A publication of the run moves the owned generation on with it. -/
theorem Owning.published {events : List CompiledEventV2} (h : Owning t₀ prepared s events) {r : ScheduleResource}
    {o : OwnedResource} (hget : s.owned.get r.key = some o) (plan : TargetPlan) (seedNamespace : UInt64) (grown : Nat)
    (s' : DriveState) (htarget : s'.target = s.target.install r plan seedNamespace grown .run)
    (howned : s'.owned = s.owned.update r.key r (s.target.top r + 1 + grown))
    (hown : s'.own = fun r' => if r' = r then some plan else s.own r') (hcleanup : s'.cleanup = s.cleanup) :
    Owning t₀ prepared s' events := by
  obtain ⟨hkeyed, hentries, hkeys⟩ := h.keyed.update hget (s.target.top r + 1 + grown)
  refine ⟨howned ▸ hkeyed, ?_, ?_, ?_, hcleanup.trans h.unrecorded⟩
  · rw [howned, hentries, htarget, hown]
    exact h.entries.published r plan seedNamespace grown
  · intro event he
    rw [howned, Owned.get_isSome hkeys]
    exact h.covered event he
  · have hres : ∀ o : Owned, o.map (·.2.resource) = (o.map (·.2)).map (·.resource) := by
      intro o
      rw [List.map_map]
      rfl
    rw [howned, hres, hentries, List.map_map, ← h.resources, hres]
    refine List.map_congr_left ?_
    intro o _
    exact OwnedResource.advance_resource r _ o

theorem onPublish_isolated {a : Applying} {plan : TargetPlan} {expected : Nat}
    (h : Owning t₀ prepared s (a.event :: a.rest)) (hready : Ready s a plan expected) (refused : Option TargetError)
    (grown : Nat) : (s.onPublish d a plan expected refused grown).Isolated t₀ prepared := by
  obtain ⟨o, hget, -⟩ := hready.owned
  unfold onPublish
  rcases s.target.publish_cases refused a.event.action.resource expected plan (eventNamespace d a.event.compiledIndex)
    grown with ⟨e, he, -⟩ | ⟨cell, -, -, -, hpub⟩
  · simp only [he]
    exact fail_isolated (s := { s with target := s.target }) h _
  · simp only [hpub]
    have hnext (phase : DrivePhase) : Owning t₀ prepared { s with
        target := s.target.install a.event.action.resource plan (eventNamespace d a.event.compiledIndex) grown .run
        owned := s.owned.update a.event.action.resource.key a.event.action.resource
          (s.target.top a.event.action.resource + 1 + grown)
        own := fun r => if r = a.event.action.resource then some plan else s.own r
        phase } a.rest :=
      h.tail.published hget plan _ grown _ rfl rfl rfl rfl
    split
    · exact hnext _
    · exact record_isolated (hnext s.phase) _ _
    · exact record_isolated (hnext s.phase) _ _

theorem onSibling_isolated {a : Applying} (h : Owning t₀ prepared s a.rest) (generation : Nat) (refused : Option TargetError) :
    (s.onSibling d a generation refused).Isolated t₀ prepared := by
  unfold onSibling
  split
  · exact fail_isolated h _
  · split
    · exact record_isolated h _ _
    · exact record_isolated h _ _

theorem noteCleanup_isolated {entry : OwnedResource} {todo : List OwnedResource}
    (h : Entries t₀ s.target s.own todo)
    (hrecorded : s.cleanup.map (·.resource) ++ (entry :: todo).map (·.resource) = prepared)
    (outcome : CleanupResourceOutcome) : (s.noteCleanup entry.resource outcome todo).Isolated t₀ prepared := by
  refine restoreNext_isolated (s := { s with cleanup := _ }) ⟨h, ?_⟩
  rw [List.map_append, ← hrecorded]
  simp

theorem onRestore_isolated {entry : OwnedResource} {todo : List OwnedResource}
    (h : Restoring t₀ prepared s (entry :: todo)) (refused : Option TargetError) :
    (s.onRestore entry todo refused).Isolated t₀ prepared := by
  unfold onRestore
  split
  · exact noteCleanup_isolated h.entries.tail h.recorded _
  · split
    · exact noteCleanup_isolated h.entries.tail h.recorded _
    · next hgen => exact ⟨⟨h.entries, h.recorded⟩, not_not.1 hgen⟩

theorem onRepublish_isolated {entry : OwnedResource} {current : Nat} {todo : List OwnedResource}
    (h : Restoring t₀ prepared s (entry :: todo)) (refused : Option TargetError) (grown : Nat) :
    (s.onRepublish d entry current todo refused grown).Isolated t₀ prepared := by
  unfold onRepublish
  rcases s.target.publish_cases refused entry.resource current entry.initialPlan (cleanupNamespace d) grown with
    ⟨e, he, -⟩ | ⟨cell, -, -, -, hpub⟩
  · simp only [he]
    exact noteCleanup_isolated (s := { s with target := s.target }) h.entries.tail h.recorded _
  · simp only [hpub]
    exact noteCleanup_isolated (s := { s with target := _, own := _ }) (h.entries.restored _ _ grown) h.recorded _

/-- Somebody else's operation: it changes no cell to the owned generation. -/
theorem foreign_isolated {t : Target} (h : s.Isolated t₀ prepared)
    (hentries : ∀ entries, Entries t₀ s.target s.own entries → Entries t₀ t s.own entries)
    (hcells : ∀ r cell, t.cells r = some cell → s.target.cells r = some cell ∨ s.target.top r < cell.generation) :
    { s with target := t }.Isolated t₀ prepared := by
  have howning : ∀ events, Owning t₀ prepared s events → Owning t₀ prepared { s with target := t } events := by
    intro events ho
    exact ⟨ho.keyed, hentries _ ho.entries, ho.covered, ho.resources, ho.unrecorded⟩
  obtain ⟨target, owned, phase, status, failure, applied, events, cleanup, own⟩ := s
  cases phase with
  | waiting events => exact howning _ h
  | snapshotting a => exact howning _ h
  | readingGeneration a plan => exact h
  | readingSibling a generation => exact howning _ h
  | restoring entry todo => exact ⟨hentries _ h.entries, h.recorded⟩
  | republishing entry current todo => exact ⟨⟨hentries _ h.1.entries, h.1.recorded⟩, h.2⟩
  | finished => exact h
  | publishing a plan expected =>
    obtain ⟨ho, hready⟩ := h
    refine ⟨howning _ ho, hready.owned, ?_⟩
    intro id hid cell hcell hgen
    rcases hcells _ _ hcell with hold | hnew
    · exact hready.removal id hid cell hold hgen
    · -- A new generation is above the owned one.
      obtain ⟨o, hget, hexpected⟩ := hready.owned
      obtain ⟨hr, hmem⟩ := ho.keyed.get_resource hget
      have hle := (ho.entries.tracks o hmem).le_top
      rw [hr] at hle
      simp only at hle hnew
      omega

theorem step_isolated (hstrict : strict d = true) (h : s.Isolated t₀ prepared) (op : Op) : (s.step d op).Isolated t₀ prepared := by
  cases op with
  | due now =>
    simp only [step]
    split
    · next event rest hphase =>
      split
      · unfold Isolated at h
        rw [hphase] at h
        exact begin_isolated hstrict h now
      · exact h
    · exact h
  | cancelled =>
    simp only [step]
    split
    · next event rest hphase =>
      unfold Isolated at h
      rw [hphase] at h
      exact enterCleanup_isolated h _
    · exact h
  | call refused grown =>
    have hi := h
    unfold Isolated at h
    simp only [step, onCall]
    cases hphase : s.phase with
    | waiting events => exact hi
    | finished => exact hi
    | snapshotting a => rw [hphase] at h; exact onSnapshot_isolated hstrict h refused
    | readingGeneration a plan => rw [hphase] at h; exact h.elim
    | publishing a plan expected => rw [hphase] at h; exact onPublish_isolated h.1 h.2 refused grown
    | readingSibling a generation => rw [hphase] at h; exact onSibling_isolated h generation refused
    | restoring entry todo => rw [hphase] at h; exact onRestore_isolated h refused
    | republishing entry current todo => rw [hphase] at h; exact onRepublish_isolated h.1 refused grown
  | external r plan seedNamespace grown =>
    refine foreign_isolated h (fun entries he => he.external r plan seedNamespace grown) ?_
    intro r' cell hc
    by_cases hr : r' = r
    · subst hr
      simp only [Target.install, if_true, Option.some.injEq] at hc
      subst hc
      exact .inr (by simp only; omega)
    · simp only [Target.install, if_neg hr] at hc
      exact .inl hc
  | remove r =>
    refine foreign_isolated h (fun entries he => he.removed r) ?_
    intro r' cell hc
    by_cases hr : r' = r
    · simp [Target.remove, hr] at hc
    · simp only [Target.remove, if_neg hr] at hc
      exact .inl hc
  | reconfigured globalGeneration =>
    exact foreign_isolated h (fun entries he => ⟨fun o ho => ⟨(he.tracks o ho).le_top, (he.tracks o ho).cell⟩,
      he.initial, he.nodup⟩) fun r cell hc => .inl hc

/-- Whatever a step of a strict run replaces is the run's own plan or the one it
found, never somebody else's. -/
theorem Isolated.replaces (h : s.Isolated t₀ prepared) {op : Op} (hrun : op.isRun = true) {r : ScheduleResource}
    (hchange : (s.step d op).target.cells r ≠ s.target.cells r) :
    ∃ cell, s.target.cells r = some cell ∧ cell.origin ≠ .external ∧ s.own r = some cell.plan := by
  unfold Isolated at h
  rcases run_step_target s hrun with hsame | ⟨r', cell, a, plan, expected, hp⟩ | ⟨r', cell, entry, current, todo, hp⟩
  · exact absurd (by rw [hsame]) hchange
  · obtain ⟨hphase, rfl, hcell, hgen, grown, -, htarget⟩ := hp
    rw [hphase] at h
    obtain ⟨ho, hready⟩ := h
    have hr : r = a.event.action.resource := by
      by_contra hne
      exact hchange (by rw [htarget]; simp [Target.install, hne])
    subst hr
    obtain ⟨o, hget, hexpected⟩ := hready.owned
    obtain ⟨hres, hmem⟩ := ho.keyed.get_resource hget
    have htracks := (ho.entries.tracks o hmem).cell cell (by rw [hres]; exact hcell)
    rw [hres] at htracks
    rcases htracks with ⟨-, horigin, hown⟩ | ⟨hlt, -⟩
    · exact ⟨cell, hcell, horigin, hown⟩
    · omega
  · obtain ⟨hphase, rfl, hcell, hgen, grown, -, htarget⟩ := hp
    rw [hphase] at h
    obtain ⟨hres, hcurrent⟩ := h
    have hr : r = entry.resource := by
      by_contra hne
      exact hchange (by rw [htarget]; simp [Target.install, hne])
    subst hr
    rcases (hres.entries.tracks entry (by simp)).cell cell hcell with ⟨-, horigin, hown⟩ | ⟨hlt, -⟩
    · exact ⟨cell, hcell, horigin, hown⟩
    · omega

/-- A prepared run is isolated. -/
theorem start_isolated {capabilities : TargetCapabilities}
    {policies : ScheduleResource → Option (Nat × TargetPlan × UInt64)} {global : Nat} {owned : Owned}
    (hp : prepareInitial capabilities (.before policies global) d.compiled = .ok owned) :
    (start d (.before policies global) owned).Isolated (.before policies global) (owned.map (·.2.resource)) := by
  obtain ⟨hc, -, hcovered⟩ := prepareFrom_collected (show Collected _ [] from ⟨⟨by simp, by simp⟩, by simp⟩) hp
  refine next_isolated ⟨hc.keyed, ⟨?_, ?_, ?_⟩, hcovered, rfl, rfl⟩
  · intro o ho
    obtain ⟨cell, hcell, hgen, hplan⟩ := hc.cells o ho
    obtain ⟨horigin, htop⟩ := before_cell hcell
    refine ⟨by rw [← hgen, htop], ?_⟩
    intro cell' hcell'
    rw [hcell] at hcell'
    cases hcell'
    exact .inl ⟨hgen, by simp [horigin], by simp [hcell]⟩
  · intro o ho
    obtain ⟨cell, hcell, -, hplan⟩ := hc.cells o ho
    rw [hcell, ← hplan]
    rfl
  · have := hc.keyed.nodup
    rwa [← Function.comp_def (fun o : OwnedResource => o.resource) Prod.snd, ← List.map_map] at this

/-! ## Runs -/

/-- What the restore of a resource that is still there leaves: its plan from
before the run, or somebody else's plan, reported as a conflict. -/
def Restored (t₀ : Target) (s : DriveState) (r : ScheduleResource) (outcome : CleanupResourceOutcome) : Prop :=
  (outcome = .restored ∧ ∃ cell, s.target.cells r = some cell ∧ (t₀.cells r).map (·.plan) = some cell.plan) ∨
    (outcome = .conflict ∧ ∃ cell, s.target.cells r = some cell ∧ cell.origin = .external)

/-- One answered call of the cleanup of `entry`: it goes on to publish, or the
resource is recorded and left as `Restored` says, or it is gone. -/
theorem restore_step {entry : OwnedResource} {todo : List OwnedResource} (h : s.Isolated t₀ prepared)
    (hphase : s.phase = .restoring entry todo ∨ ∃ current, s.phase = .republishing entry current todo) (grown : Nat) :
    (∃ current, (s.step d (.call none grown)).phase = .republishing entry current todo) ∨
      ∃ outcome, (s.step d (.call none grown)).cleanup = s.cleanup ++ [⟨entry.resource, outcome⟩] ∧
        (Restored t₀ (s.step d (.call none grown)) entry.resource outcome ∨
          s.target.cells entry.resource = none) := by
  have hnote : ∀ (s : DriveState) outcome, (s.noteCleanup entry.resource outcome todo).cleanup =
      s.cleanup ++ [⟨entry.resource, outcome⟩] := by
    intro s outcome
    unfold noteCleanup
    cases todo <;> rfl
  unfold Isolated at h
  rcases hphase with hphase | ⟨current, hphase⟩
  · rw [hphase] at h
    simp only [step, onCall, hphase, onRestore, Target.read]
    cases hc : s.target.cells entry.resource with
    | none => exact .inr ⟨.missing, hnote _ _, .inr rfl⟩
    | some cell =>
      by_cases hgen : cell.generation = entry.lastOwnedGeneration
      · left
        simp only [hgen, ne_eq, not_true_eq_false, if_false]
        exact ⟨_, rfl⟩
      · right
        simp only [ne_eq, hgen, not_false_eq_true, if_true]
        refine ⟨.conflict, hnote _ _, .inl (.inr ⟨rfl, cell, by simpa using hc, ?_⟩)⟩
        rcases (h.entries.tracks entry (by simp)).cell cell hc with ⟨hsame, -⟩ | ⟨-, hext⟩
        · exact absurd hsame hgen
        · exact hext
  · rw [hphase] at h
    obtain ⟨hres, hcurrent⟩ := h
    right
    simp only [step, onCall, hphase, onRepublish]
    rcases s.target.publish_cases none entry.resource current entry.initialPlan (cleanupNamespace d) grown with
      ⟨e, he, hne⟩ | ⟨cell, hcell, hgen, -, hpub⟩
    · simp only [he]
      refine ⟨.conflict, hnote _ _, ?_⟩
      cases hc : s.target.cells entry.resource with
      | none => exact .inr rfl
      | some cell =>
        refine .inl (.inr ⟨rfl, cell, by simpa using hc, ?_⟩)
        rcases (hres.entries.tracks entry (by simp)).cell cell hc with ⟨hsame, -⟩ | ⟨-, hext⟩
        · exact absurd (hsame.trans hcurrent.symm) (hne rfl cell hc)
        · exact hext
    · simp only [hpub]
      refine ⟨.restored, hnote _ _, .inl (.inl ⟨rfl,
        ⟨s.target.top entry.resource + 1 + grown, entry.initialPlan, cleanupNamespace d, .run⟩, ?_,
        hres.entries.initial entry (by simp)⟩)⟩
      simp [Target.install]

/-- A recorded resource is not touched again. -/
theorem recorded_unchanged (hnodup : prepared.Nodup) (h : s.Isolated t₀ prepared) {op : Op} (hrun : op.isRun = true)
    {record : CleanupResourceRecord} (hrec : record ∈ s.cleanup) :
    (s.step d op).target.cells record.resource = s.target.cells record.resource := by
  unfold Isolated at h
  rcases run_step_target s hrun with hsame | ⟨r', cell, a, plan, expected, hp⟩ | ⟨r', cell, entry, current, todo, hp⟩
  · rw [hsame]
  · rw [hp.phase] at h
    rw [h.1.unrecorded] at hrec
    cases hrec
  · rw [hp.phase] at h
    obtain ⟨grown, -, htarget⟩ := hp.target
    rw [htarget, hp.resource]
    have hne : record.resource ≠ entry.resource := by
      intro heq
      rw [← h.1.recorded] at hnodup
      have hdisjoint := (List.nodup_append.1 hnodup).2.2
      exact hdisjoint _ (List.mem_map.2 ⟨record, hrec, rfl⟩) _ (by simp) heq
    simp [Target.install, hne]

/-- The publication of a removal takes the fault out of the run's own plan. -/
theorem removal_published (h : s.Isolated t₀ prepared) {op : Op} (hrun : op.isRun = true) {a : Applying}
    {plan : TargetPlan} {expected : Nat} {id : String} (hphase : s.phase = .publishing a plan expected)
    (hremoves : a.event.action.removes = some id)
    (hchange : (s.step d op).target.cells a.event.action.resource ≠ s.target.cells a.event.action.resource) :
    ∃ last cell, s.own a.event.action.resource = some last ∧
      (s.step d op).target.cells a.event.action.resource = some cell ∧ cell.plan = last.without id := by
  obtain ⟨found, hfound, -, hown⟩ := h.replaces hrun hchange
  unfold Isolated at h
  rw [hphase] at h
  rcases run_step_target s hrun with hsame | ⟨r', cell, a', plan', expected', hp⟩ | ⟨r', cell, entry, current, todo, hp⟩
  · exact absurd (by rw [hsame]) hchange
  · obtain ⟨hphase', rfl, hcell, hgen, grown, -, htarget⟩ := hp
    rw [hphase] at hphase'
    cases hphase'
    rw [hfound] at hcell
    cases hcell
    refine ⟨found.plan, ⟨s.target.top a.event.action.resource + 1 + grown, plan,
      eventNamespace d a.event.compiledIndex, .run⟩, hown, ?_, h.2.removal id hremoves found hfound hgen⟩
    rw [htarget]
    simp [Target.install]
  · have hphase' := hp.phase
    rw [hphase] at hphase'
    cases hphase'

/-- A resource that is being restored was there before the run. -/
theorem Isolated.restoring_present (h : s.Isolated t₀ prepared) {entry : OwnedResource} {todo : List OwnedResource}
    (hphase : s.phase = .restoring entry todo ∨ ∃ current, s.phase = .republishing entry current todo) :
    t₀.cells entry.resource ≠ none := by
  have hmem : entry ∈ entry :: todo := by simp
  have hinitial : (t₀.cells entry.resource).map (·.plan) = some entry.initialPlan := by
    unfold Isolated at h
    rcases hphase with hphase | ⟨current, hphase⟩
    · rw [hphase] at h
      exact h.entries.initial entry hmem
    · rw [hphase] at h
      exact h.1.entries.initial entry hmem
  intro hnone
  rw [hnone] at hinitial
  cases hinitial

/-- A finished run has recorded every resource that was prepared. -/
theorem Isolated.finished_recorded (h : s.Isolated t₀ prepared) (hfinished : s.phase = .finished) {r : ScheduleResource}
    (hr : r ∈ prepared) : ∃ record ∈ s.cleanup, record.resource = r := by
  unfold Isolated at h
  rw [hfinished] at h
  rw [← h] at hr
  exact List.mem_map.1 hr

end DriveState

open DriveState in
/-- In every reachable state of a strict run, prepared on any target, whatever
others publish in between:

- a step of the run that changes a resource does not replace somebody else's
  plan;
- the publication of a removal installs the run's own last plan for the
  resource, or the one it found, without that fault;
- the cleanup of a resource leaves its plan from before the run, or an external
  plan that is reported as a conflict, unless somebody removed the resource; the
  run does not touch it again, and at the end every resource that the schedule
  names is recorded. -/
theorem strict_isolation (d : Drive) (hstrict : d.compiled.isolation = .strict) (capabilities : TargetCapabilities)
    (policies : ScheduleResource → Option (Nat × TargetPlan × UInt64)) (global : Nat) (owned : Owned)
    (hprepared : prepareInitial capabilities (.before policies global) d.compiled = .ok owned) (ops : List Op) :
    let t₀ := Target.before policies global
    let s := after d t₀ owned ops
    (∀ op, op.isRun = true → ∀ r, (s.step d op).target.cells r ≠ s.target.cells r →
        ∃ cell, s.target.cells r = some cell ∧ cell.origin ≠ .external) ∧
      (∀ op, op.isRun = true → ∀ a plan expected id, s.phase = .publishing a plan expected →
        a.event.action.removes = some id →
        (s.step d op).target.cells a.event.action.resource ≠ s.target.cells a.event.action.resource →
        ∃ last cell, s.own a.event.action.resource = some last ∧
          (s.step d op).target.cells a.event.action.resource = some cell ∧ cell.plan = last.without id) ∧
      (∀ entry todo grown, (s.phase = .restoring entry todo ∨ ∃ current, s.phase = .republishing entry current todo) →
        (∃ current, (s.step d (.call none grown)).phase = .republishing entry current todo) ∨
          ∃ outcome, (s.step d (.call none grown)).cleanup = s.cleanup ++ [⟨entry.resource, outcome⟩] ∧
            (Restored t₀ (s.step d (.call none grown)) entry.resource outcome ∨ Op.remove entry.resource ∈ ops)) ∧
      (∀ op, op.isRun = true → ∀ record ∈ s.cleanup,
        (s.step d op).target.cells record.resource = s.target.cells record.resource) ∧
      (s.phase = .finished → ∀ event ∈ d.compiled.events, ∃ record ∈ s.cleanup,
        record.resource = event.action.resource) := by
  intro t₀ s
  have hd : strict d = true := by simp [strict, hstrict]
  have hi : s.Isolated t₀ (owned.map (·.2.resource)) :=
    run_inv (fun s : DriveState => s.Isolated t₀ (owned.map (·.2.resource))) (fun s op h => step_isolated hd h op)
      (start_isolated hprepared) ops
  obtain ⟨hcollected, -, hcovered⟩ := prepareFrom_collected (show Collected _ [] from ⟨⟨by simp, by simp⟩, by simp⟩) hprepared
  refine ⟨?_, ?_, ?_, ?_, ?_⟩
  · intro op hrun r hchange
    obtain ⟨cell, hcell, horigin, -⟩ := hi.replaces hrun hchange
    exact ⟨cell, hcell, horigin⟩
  · intro op hrun a plan expected id hphase hremoves hchange
    exact removal_published hi hrun hphase hremoves hchange
  · intro entry todo grown hphase
    rcases restore_step hi hphase grown with hgo | ⟨outcome, hclean, hleft | hgone⟩
    · exact .inl hgo
    · exact .inr ⟨outcome, hclean, .inl hleft⟩
    · refine .inr ⟨outcome, hclean, .inr ?_⟩
      by_contra hops
      exact run_present (s := start d t₀ owned) (by simpa [start] using hi.restoring_present hphase) hops hgone
  · intro op hrun record hrec
    exact recorded_unchanged hcollected.keyed.nodup hi hrun hrec
  · intro hfinished event hevent
    obtain ⟨o, ho⟩ := Option.isSome_iff_exists.1 (hcovered event hevent)
    obtain ⟨hres, -⟩ := hcollected.keyed.get_resource ho
    refine hi.finished_recorded hfinished ?_
    rw [← hres]
    exact List.mem_map.2 ⟨_, Owned.get_mem ho, rfl⟩

open DriveState in
/-- Somebody else publishes to the resource before the cleanup. -/
def movedBeforeCleanup : List DriveState.Op :=
  [.due 0, .call none 0, .call none 0, .call none 0, .external apiUpstream slowPlan 9 0, .call none 0]

open DriveState in
theorem strict_isolation_conflict :
    let s := after removalDrive (.before apiPolicies 1) apiOwned movedBeforeCleanup
    s.phase = .finished ∧ s.cleanup = [⟨apiUpstream, .conflict⟩] ∧
      ∃ record ∈ s.cleanup, record.resource = apiUpstream := by
  refine ⟨by decide, by decide, ?_⟩
  have h := strict_isolation removalDrive rfl ⟨true, false⟩ apiPolicies 1 apiOwned rfl movedBeforeCleanup
  exact h.2.2.2.2 (by decide) ⟨0, .top 0, 0, .removeFault "api" .upstream "slow"⟩ (by simp [removalDrive])

end Eggchaos
