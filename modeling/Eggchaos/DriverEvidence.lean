import Eggchaos.DriverLemmas
/-!
# The evidence of a run

The driver hands one record to the sink for each event it has applied. A run is
watched here together with the publications that took effect, each with the
generations that both directions have right after it. The records and the
publications agree unless the generation of the other direction cannot be read
behind the publication, has moved by then, or is not asked for at all, as it is
for datagram events.
-/

namespace Eggchaos
open Lib

/-- The generation of a resource, if it is there. -/
def Target.generation (t : Target) (r : ScheduleResource) : Option Nat := (t.cells r).map (·.generation)

theorem Target.install_generation (t : Target) (r r' : ScheduleResource) (plan : TargetPlan) (seedNamespace : UInt64)
    (grown : Nat) (origin : Origin) :
    (t.install r plan seedNamespace grown origin).generation r' =
      if r' = r then some (t.top r + 1 + grown) else t.generation r' := by
  simp only [Target.install, Target.generation]
  split <;> rfl

def ScheduleEventResult.generation (record : ScheduleEventResult) : Direction → Nat
  | .upstream => record.upstreamGeneration
  | .downstream => record.downstreamGeneration

/-- A publication of an event that took effect, and the generations right after
it. -/
structure Publication where
  event : CompiledEventV2
  generations : Direction → Option Nat

/-- The record is of this publication and shows its generations. -/
structure Shows (record : ScheduleEventResult) (p : Publication) : Prop where
  index : record.compiledIndex = p.event.compiledIndex
  phase : record.phase = p.event.phase
  offset : record.scheduledOffsetNs = p.event.offsetNs
  action : record.action = p.event.action.name
  resource : record.resource = p.event.action.resource
  generations : ∀ direction, p.generations direction = some (record.generation direction)

/-- The events not recorded yet, in the order of the tape. -/
def DrivePhase.todo : DrivePhase → List CompiledEventV2
  | .waiting events => events
  | .snapshotting a | .readingGeneration a _ | .publishing a _ _ | .readingSibling a _ => a.event :: a.rest
  | .restoring _ _ | .republishing _ _ _ | .finished => []

/-- The event that is published and not recorded yet. -/
def DrivePhase.reading : DrivePhase → Option (Applying × Nat)
  | .readingSibling a generation => some (a, generation)
  | _ => none

namespace DriveState

/-- The publication for an event that this step makes. -/
def publication (d : Drive) (s : DriveState) : Op → Option Publication
  | .call refused grown =>
    match s.phase with
    | .publishing a plan expected =>
      let r := a.event.action.resource
      match s.target.publish refused r expected plan (eventNamespace d a.event.compiledIndex) grown with
      | (.error _, _) => none
      | (.ok _, target) => some ⟨a.event, fun direction => target.generation { r with direction }⟩
    | _ => none
  | _ => none

end DriveState

/-- A run and the publications it has made for its events. -/
structure Watched where
  state : DriveState
  published : List Publication

namespace Watched

def step (d : Drive) (w : Watched) (op : DriveState.Op) : Watched :=
  ⟨w.state.step d op, w.published ++ (w.state.publication d op).toList⟩

/-- The publications whose record is due; that of the event just published comes
with the generation of the other direction. -/
def due (w : Watched) : List Publication :=
  if w.state.phase.reading.isSome then w.published.dropLast else w.published

/-- The records are those of the publications, in order. -/
def Complete (w : Watched) : Prop := List.Forall₂ Shows w.state.events w.due

/-- The call leaves the records behind the publications: a datagram plan is
published beside a direction that is not at generation zero, or the generation of
the other direction is not what it was at the publication. -/
def Spoils (w : Watched) : DriveState.Op → Prop
  | .call refused _ =>
    match w.state.phase with
    | .publishing a _ expected =>
      let r := a.event.action.resource
      r.transport = .datagram ∧ refused = none ∧ w.state.target.generation r = some expected ∧
        w.state.target.generation (DriveState.sibling r) ≠ some 0
    | .readingSibling a _ =>
      let r := DriveState.sibling a.event.action.resource
      refused ≠ none ∨ w.state.target.generation r = none ∨
        w.state.target.generation r ≠ w.published.getLast?.bind (·.generations r.direction)
    | _ => False
  | _ => False

instance (w : Watched) (op : DriveState.Op) : Decidable (w.Spoils op) := by
  unfold Spoils
  split
  · split <;> infer_instance
  · infer_instance

end Watched

namespace DriveState
variable {d : Drive}

/-- Between events nothing is recorded, and no publication waits for its record. -/
structure Moves (s s' : DriveState) (todo : List CompiledEventV2) : Prop where
  events : s'.events = s.events
  applied : s'.applied = s.applied
  todo : s'.phase.todo <+: todo
  reading : s'.phase.reading = none

theorem Moves.weaken {s s' : DriveState} {todo todo' : List CompiledEventV2} (h : Moves s s' todo) (hp : todo <+: todo') :
    Moves s s' todo' := ⟨h.events, h.applied, h.todo.trans hp, h.reading⟩

theorem restoreNext_moves (s : DriveState) (left : List OwnedResource) : Moves s (s.restoreNext left) [] := by
  cases left <;> exact ⟨rfl, rfl, List.prefix_rfl, rfl⟩

theorem enterCleanup_moves (s : DriveState) (status : ScheduleRunStatus) : Moves s (s.enterCleanup d status) [] := by
  unfold enterCleanup
  cases d.compiled.cleanup with
  | leave => exact ⟨rfl, rfl, List.prefix_rfl, rfl⟩
  | restoreInitial =>
    obtain ⟨he, ha, ht, hr⟩ := restoreNext_moves { s with status } (s.owned.map (·.2))
    exact ⟨he, ha, ht, hr⟩

theorem fail_moves (s : DriveState) (reason : String) (todo : List CompiledEventV2) : Moves s (s.fail d reason) todo := by
  obtain ⟨he, ha, ht, hr⟩ := enterCleanup_moves (d := d) { s with failure := some reason } .failed
  exact ⟨he, ha, ht.trans List.nil_prefix, hr⟩

theorem next_moves (s : DriveState) (events : List CompiledEventV2) : Moves s (s.next d events) events := by
  cases events with
  | nil => exact enterCleanup_moves s .completed
  | cons event rest => exact ⟨rfl, rfl, List.prefix_rfl, rfl⟩

theorem expect_moves (s : DriveState) (a : Applying) (plan : TargetPlan) :
    Moves s (s.expect d a plan) (a.event :: a.rest) := by
  unfold expect
  split
  · exact ⟨rfl, rfl, List.prefix_rfl, rfl⟩
  · exact ⟨rfl, rfl, List.prefix_rfl, rfl⟩

theorem begin_moves (s : DriveState) (now : Nat) (event : CompiledEventV2) (rest : List CompiledEventV2) :
    Moves s (s.begin d now event rest) (event :: rest) := by
  unfold begin
  split
  · split
    · exact fail_moves s _ _
    · exact expect_moves s _ _
  · split
    · exact fail_moves s _ _
    · exact expect_moves s _ _
  · exact ⟨rfl, rfl, List.prefix_rfl, rfl⟩
  · exact ⟨rfl, rfl, List.prefix_rfl, rfl⟩

theorem onSnapshot_moves (s : DriveState) (a : Applying) (refused : Option TargetError) :
    Moves s (s.onSnapshot d a refused) (a.event :: a.rest) := by
  unfold onSnapshot
  split
  · exact fail_moves s _ _
  · split
    · exact fail_moves s _ _
    · split
      · exact expect_moves s _ _
      · exact ⟨rfl, rfl, List.prefix_rfl, rfl⟩

theorem onGeneration_moves (s : DriveState) (a : Applying) (plan : TargetPlan) (refused : Option TargetError) :
    Moves s (s.onGeneration d a plan refused) (a.event :: a.rest) := by
  unfold onGeneration
  split
  · exact fail_moves s _ _
  · exact ⟨rfl, rfl, List.prefix_rfl, rfl⟩

theorem noteCleanup_moves (s : DriveState) (r : ScheduleResource) (outcome : CleanupResourceOutcome)
    (left : List OwnedResource) : Moves s (s.noteCleanup r outcome left) [] := by
  obtain ⟨he, ha, ht, hr⟩ := restoreNext_moves { s with cleanup := s.cleanup ++ [⟨r, outcome⟩] } left
  exact ⟨he, ha, ht, hr⟩

theorem onRestore_moves (s : DriveState) (entry : OwnedResource) (left : List OwnedResource)
    (refused : Option TargetError) : Moves s (s.onRestore entry left refused) [] := by
  unfold onRestore
  split
  · exact noteCleanup_moves s _ _ _
  · split
    · exact noteCleanup_moves s _ _ _
    · exact ⟨rfl, rfl, List.prefix_rfl, rfl⟩

theorem onRepublish_moves (s : DriveState) (entry : OwnedResource) (current : Nat) (left : List OwnedResource)
    (refused : Option TargetError) (grown : Nat) : Moves s (s.onRepublish d entry current left refused grown) [] := by
  unfold onRepublish
  split
  · next target _ =>
    obtain ⟨he, ha, ht, hr⟩ := noteCleanup_moves { s with target } entry.resource .conflict left
    exact ⟨he, ha, ht, hr⟩
  · next target _ =>
    obtain ⟨he, ha, ht, hr⟩ := noteCleanup_moves { s with
      target
      own := fun r => if r = entry.resource then some entry.initialPlan else s.own r } entry.resource .restored left
    exact ⟨he, ha, ht, hr⟩

/-- Recording appends one record, of this event. -/
theorem record_records (s : DriveState) (a : Applying) (upstream downstream : Nat) :
    ∃ result, (∀ p : Publication, p.event = a.event →
        (Shows result p ↔ p.generations .upstream = some upstream ∧ p.generations .downstream = some downstream)) ∧
      result.compiledIndex = a.event.compiledIndex ∧
      Moves { s with events := s.events ++ [result], applied := s.applied + 1 } (s.record d a upstream downstream) a.rest := by
  unfold record
  simp only
  refine ⟨_, ?_, ?_, next_moves _ a.rest⟩
  · rintro p hp
    constructor
    · intro h
      exact ⟨h.generations .upstream, h.generations .downstream⟩
    · rintro ⟨hup, hdown⟩
      refine ⟨by rw [hp], by rw [hp], by rw [hp], by rw [hp], by rw [hp], ?_⟩
      intro direction
      cases direction with
      | upstream => exact hup
      | downstream => exact hdown
  · rfl

/-- The record shows this event with these generations of the resource and of the
other direction. -/
def Records (result : ScheduleEventResult) (event : CompiledEventV2) (generation other : Nat) : Prop :=
  result.compiledIndex = event.compiledIndex ∧
    ∀ p : Publication, p.event = event → (Shows result p ↔
      p.generations event.action.resource.direction = some generation ∧
        p.generations (sibling event.action.resource).direction = some other)

theorem record_upstream {a : Applying} (h : a.event.action.resource.direction = .upstream) (s : DriveState)
    (generation other : Nat) :
    ∃ result, Records result a.event generation other ∧
      Moves { s with events := s.events ++ [result], applied := s.applied + 1 } (s.record d a generation other) a.rest := by
  obtain ⟨result, hshows, hindex, hmoves⟩ := s.record_records (d := d) a generation other
  refine ⟨result, ⟨hindex, fun p hp => ?_⟩, hmoves⟩
  rw [hshows p hp]
  simp only [sibling, h]

theorem record_downstream {a : Applying} (h : a.event.action.resource.direction = .downstream) (s : DriveState)
    (generation other : Nat) :
    ∃ result, Records result a.event generation other ∧
      Moves { s with events := s.events ++ [result], applied := s.applied + 1 } (s.record d a other generation) a.rest := by
  obtain ⟨result, hshows, hindex, hmoves⟩ := s.record_records (d := d) a other generation
  refine ⟨result, ⟨hindex, fun p hp => ?_⟩, hmoves⟩
  rw [hshows p hp]
  simp only [sibling, h]
  exact and_comm

theorem sibling_ne (r : ScheduleResource) : sibling r ≠ r := by
  intro h
  have hd := congrArg ScheduleResource.direction h
  unfold sibling at hd
  cases hr : r.direction <;> simp [hr] at hd

/-- What a step does to the evidence. -/
inductive Notes (d : Drive) (s : DriveState) (op : Op) : Prop
  | same (events : (s.step d op).events = s.events) (applied : (s.step d op).applied = s.applied)
      (phase : (s.step d op).phase = s.phase) (silent : s.publication d op = none)
      (spares : ∀ published, ¬ Watched.Spoils ⟨s, published⟩ op)
  | moves (idle : s.phase.reading = none) (silent : s.publication d op = none)
      (spares : ∀ published, ¬ Watched.Spoils ⟨s, published⟩ op)
      (moves : Moves s (s.step d op) s.phase.todo)
  /-- A stream event is published, and its record waits. -/
  | published (a : Applying) (generation : Nat) (p : Publication) (idle : s.phase.reading = none)
      (phase : (s.step d op).phase = .readingSibling a generation) (todo : s.phase.todo = a.event :: a.rest)
      (events : (s.step d op).events = s.events) (applied : (s.step d op).applied = s.applied)
      (publication : s.publication d op = some p) (event : p.event = a.event)
      (generations : p.generations a.event.action.resource.direction = some generation)
      (spares : ∀ published, ¬ Watched.Spoils ⟨s, published⟩ op)
  /-- A datagram event is published and recorded. -/
  | direct (a : Applying) (generation : Nat) (p : Publication) (result : ScheduleEventResult)
      (idle : s.phase.reading = none) (todo : s.phase.todo = a.event :: a.rest)
      (publication : s.publication d op = some p) (event : p.event = a.event)
      (generations : p.generations a.event.action.resource.direction = some generation)
      (records : Records result a.event generation 0)
      (moves : Moves { s with events := s.events ++ [result], applied := s.applied + 1 } (s.step d op) a.rest)
      (spoils : ∀ published, Watched.Spoils ⟨s, published⟩ op ↔
        p.generations (sibling a.event.action.resource).direction ≠ some 0)
  /-- The other direction cannot be read, and the run fails. -/
  | lost (a : Applying) (generation : Nat) (phase : s.phase = .readingSibling a generation)
      (silent : s.publication d op = none) (moves : Moves s (s.step d op) [])
      (spoils : ∀ published, Watched.Spoils ⟨s, published⟩ op)
  | recorded (a : Applying) (generation other : Nat) (result : ScheduleEventResult)
      (phase : s.phase = .readingSibling a generation) (silent : s.publication d op = none)
      (records : Records result a.event generation other)
      (moves : Moves { s with events := s.events ++ [result], applied := s.applied + 1 } (s.step d op) a.rest)
      (spoils : ∀ published, Watched.Spoils ⟨s, published⟩ op ↔
        published.getLast?.bind (·.generations (sibling a.event.action.resource).direction) ≠ some other)

theorem onPublish_notes {s : DriveState} {a : Applying} {plan : TargetPlan} {expected : Nat}
    (hphase : s.phase = .publishing a plan expected) (refused : Option TargetError) (grown : Nat) :
    Notes d s (.call refused grown) := by
  have hstep : s.step d (.call refused grown) = s.onPublish d a plan expected refused grown := by
    simp only [step, onCall, hphase]
  have hnone : s.phase.reading = none := by rw [hphase]; rfl
  have htodo : s.phase.todo = a.event :: a.rest := by rw [hphase]; rfl
  rcases s.target.publish_cases refused a.event.action.resource expected plan
    (eventNamespace d a.event.compiledIndex) grown with ⟨e, he, hmiss⟩ | ⟨cell, hcell, hgen, rfl, hpub⟩
  · -- refused, missing or moved on: nothing is published
    have hsilent : s.publication d (.call refused grown) = none := by simp only [publication, hphase, he]
    refine .moves hnone hsilent ?_ ?_
    · intro published hspoils
      simp only [Watched.Spoils, hphase] at hspoils
      obtain ⟨-, hrefused, hexpected, -⟩ := hspoils
      obtain ⟨cell, hcell, hg⟩ := Option.map_eq_some_iff.1 hexpected
      exact hmiss hrefused cell hcell hg
    · rw [hstep, htodo]
      simp only [onPublish, he]
      exact fail_moves s _ _
  · have hgenerations : ∀ r', (s.target.install a.event.action.resource plan (eventNamespace d a.event.compiledIndex)
        grown .run).generation r' = if r' = a.event.action.resource then
          some (s.target.top a.event.action.resource + 1 + grown) else s.target.generation r' :=
      fun r' => s.target.install_generation _ r' _ _ _ _
    have hexpected : s.target.generation a.event.action.resource = some expected := by
      simp [Target.generation, hcell, hgen]
    have hpublication : s.publication d (.call none grown) = some ⟨a.event, fun direction =>
        (s.target.install a.event.action.resource plan (eventNamespace d a.event.compiledIndex) grown .run).generation
          { a.event.action.resource with direction }⟩ := by
      simp only [publication, hphase, hpub]
    have hsibling : ({ a.event.action.resource with direction := (sibling a.event.action.resource).direction } :
        ScheduleResource) = sibling a.event.action.resource := rfl
    cases htransport : a.event.action.resource.transport with
    | stream =>
      refine .published a (s.target.top a.event.action.resource + 1 + grown) _ hnone ?_ htodo ?_ ?_ hpublication rfl ?_ ?_
      · rw [hstep]
        simp only [onPublish, hpub, htransport]
      · rw [hstep]
        simp only [onPublish, hpub, htransport]
      · rw [hstep]
        simp only [onPublish, hpub, htransport]
      · simp only [hgenerations, if_true]
      · intro published hspoils
        simp [Watched.Spoils, hphase, htransport] at hspoils
    | datagram =>
      have hspoils : ∀ published, Watched.Spoils ⟨s, published⟩ (.call none grown) ↔
          (s.target.install a.event.action.resource plan (eventNamespace d a.event.compiledIndex) grown .run).generation
            (sibling a.event.action.resource) ≠ some 0 := by
        intro published
        simp only [Watched.Spoils, hphase, htransport, hexpected, true_and, hgenerations,
          if_neg (sibling_ne a.event.action.resource)]
      cases hdirection : a.event.action.resource.direction with
      | upstream =>
        obtain ⟨result, hrecords, hmoves⟩ := record_upstream (d := d) hdirection { s with
          target := s.target.install a.event.action.resource plan (eventNamespace d a.event.compiledIndex) grown .run
          owned := s.owned.update a.event.action.resource.key a.event.action.resource
            (s.target.top a.event.action.resource + 1 + grown)
          own := fun r' => if r' = a.event.action.resource then some plan else s.own r' }
          (s.target.top a.event.action.resource + 1 + grown) 0
        refine .direct a _ _ result hnone htodo hpublication rfl ?_ hrecords ?_ hspoils
        · simp only [hgenerations, if_true]
        · rw [hstep]
          simp only [onPublish, hpub, htransport, hdirection]
          exact ⟨hmoves.events, hmoves.applied, hmoves.todo, hmoves.reading⟩
      | downstream =>
        obtain ⟨result, hrecords, hmoves⟩ := record_downstream (d := d) hdirection { s with
          target := s.target.install a.event.action.resource plan (eventNamespace d a.event.compiledIndex) grown .run
          owned := s.owned.update a.event.action.resource.key a.event.action.resource
            (s.target.top a.event.action.resource + 1 + grown)
          own := fun r' => if r' = a.event.action.resource then some plan else s.own r' }
          (s.target.top a.event.action.resource + 1 + grown) 0
        refine .direct a _ _ result hnone htodo hpublication rfl ?_ hrecords ?_ hspoils
        · simp only [hgenerations, if_true]
        · rw [hstep]
          simp only [onPublish, hpub, htransport, hdirection]
          exact ⟨hmoves.events, hmoves.applied, hmoves.todo, hmoves.reading⟩

theorem onSibling_notes {s : DriveState} {a : Applying} {generation : Nat}
    (hphase : s.phase = .readingSibling a generation) (refused : Option TargetError) (grown : Nat) :
    Notes d s (.call refused grown) := by
  have hstep : s.step d (.call refused grown) = s.onSibling d a generation refused := by
    simp only [step, onCall, hphase]
  have hsilent : s.publication d (.call refused grown) = none := by simp only [publication, hphase]
  have hspoils : ∀ published, Watched.Spoils ⟨s, published⟩ (.call refused grown) ↔ (refused ≠ none ∨
      s.target.generation (sibling a.event.action.resource) = none ∨
      s.target.generation (sibling a.event.action.resource) ≠
        published.getLast?.bind (·.generations (sibling a.event.action.resource).direction)) := by
    intro published
    simp only [Watched.Spoils, hphase]
  have hlost : ∀ e, s.target.read refused (sibling a.event.action.resource) = .error e →
      (∀ published, Watched.Spoils ⟨s, published⟩ (.call refused grown)) → Notes d s (.call refused grown) := by
    intro e hread hspoils
    refine .lost a generation hphase hsilent ?_ hspoils
    rw [hstep]
    simp only [onSibling, hread]
    exact fail_moves s _ _
  cases refused with
  | some e => exact hlost e rfl fun published => (hspoils published).2 (.inl (by simp))
  | none =>
    cases hcell : s.target.cells (sibling a.event.action.resource) with
    | none =>
      refine hlost _ (by simp only [Target.read, hcell]; rfl) fun published => (hspoils published).2 (.inr (.inl ?_))
      simp [Target.generation, hcell]
    | some cell =>
      have hread : s.target.read none (sibling a.event.action.resource) = .ok cell := by simp [Target.read, hcell]
      have hgen : s.target.generation (sibling a.event.action.resource) = some cell.generation := by
        simp [Target.generation, hcell]
      have hspoils' : ∀ published, Watched.Spoils ⟨s, published⟩ (.call none grown) ↔
          published.getLast?.bind (·.generations (sibling a.event.action.resource).direction) ≠
            some cell.generation := by
        intro published
        rw [hspoils, hgen]
        simp [eq_comm]
      cases hdirection : a.event.action.resource.direction with
      | upstream =>
        obtain ⟨result, hrecords, hmoves⟩ := record_upstream (d := d) hdirection s generation cell.generation
        refine .recorded a generation cell.generation result hphase hsilent hrecords ?_ hspoils'
        rw [hstep]
        simp only [onSibling, hread, hdirection]
        exact hmoves
      | downstream =>
        obtain ⟨result, hrecords, hmoves⟩ := record_downstream (d := d) hdirection s generation cell.generation
        refine .recorded a generation cell.generation result hphase hsilent hrecords ?_ hspoils'
        rw [hstep]
        simp only [onSibling, hread, hdirection]
        exact hmoves

/-- The step is the answer to a target call. -/
def Op.isCall : Op → Bool
  | .call _ _ => true
  | _ => false

theorem silent {s : DriveState} {op : Op} (h : op.isCall = false) : s.publication d op = none := by
  cases op with
  | call refused grown => cases h
  | _ => rfl

theorem spares {op : Op} (h : op.isCall = false) (w : Watched) : ¬ w.Spoils op := by
  cases op with
  | call refused grown => cases h
  | _ => exact id

theorem step_notes (s : DriveState) (op : Op) : Notes d s op := by
  have same : ∀ op, op.isCall = false → (s.step d op).events = s.events → (s.step d op).applied = s.applied →
      (s.step d op).phase = s.phase → Notes d s op :=
    fun op hop he ha hp => .same he ha hp (silent hop) (fun published => spares hop ⟨s, published⟩)
  have moves : ∀ op, op.isCall = false → s.phase.reading = none → Moves s (s.step d op) s.phase.todo → Notes d s op :=
    fun op hop hidle hmoves => .moves hidle (silent hop) (fun published => spares hop ⟨s, published⟩) hmoves
  cases op with
  | due now =>
    cases hphase : s.phase with
    | waiting events =>
      cases events with
      | nil => exact same _ rfl (by simp [step, hphase]) (by simp [step, hphase]) (by simp [step, hphase])
      | cons event rest =>
        by_cases hdue : d.epoch + event.offsetNs ≤ maxInstant ∧ d.epoch + event.offsetNs ≤ now
        · refine moves _ rfl (by rw [hphase]; rfl) ?_
          simp only [step, hphase, hdue, and_self, if_true]
          exact begin_moves s now event rest
        · exact same _ rfl (by simp [step, hphase, hdue]) (by simp [step, hphase, hdue])
            (by simp [step, hphase, hdue])
    | _ => exact same _ rfl (by simp [step, hphase]) (by simp [step, hphase]) (by simp [step, hphase])
  | cancelled =>
    cases hphase : s.phase with
    | waiting events =>
      cases events with
      | nil => exact same _ rfl (by simp [step, hphase]) (by simp [step, hphase]) (by simp [step, hphase])
      | cons event rest =>
        refine moves _ rfl (by rw [hphase]; rfl) ?_
        simp only [step, hphase]
        exact (enterCleanup_moves s .cancelled).weaken List.nil_prefix
    | _ => exact same _ rfl (by simp [step, hphase]) (by simp [step, hphase]) (by simp [step, hphase])
  | call refused grown =>
    -- a call outside a publication and what follows it
    have called : s.publication d (.call refused grown) = none →
        (∀ published, ¬ Watched.Spoils ⟨s, published⟩ (.call refused grown)) → s.phase.reading = none →
        Moves s (s.onCall d refused grown) s.phase.todo → Notes d s (.call refused grown) :=
      fun hsilent hspares hidle hmoves => .moves hidle hsilent hspares hmoves
    cases hphase : s.phase with
    | waiting events =>
      exact .same (by simp [step, onCall, hphase]) (by simp [step, onCall, hphase]) (by simp [step, onCall, hphase])
        (by simp [publication, hphase]) (by simp [Watched.Spoils, hphase])
    | finished =>
      exact .same (by simp [step, onCall, hphase]) (by simp [step, onCall, hphase]) (by simp [step, onCall, hphase])
        (by simp [publication, hphase]) (by simp [Watched.Spoils, hphase])
    | snapshotting a =>
      refine called (by simp [publication, hphase]) (by simp [Watched.Spoils, hphase]) (by rw [hphase]; rfl) ?_
      simp only [onCall, hphase]
      exact onSnapshot_moves s a refused
    | readingGeneration a plan =>
      refine called (by simp [publication, hphase]) (by simp [Watched.Spoils, hphase]) (by rw [hphase]; rfl) ?_
      simp only [onCall, hphase]
      exact onGeneration_moves s a plan refused
    | publishing a plan expected => exact onPublish_notes hphase refused grown
    | readingSibling a generation => exact onSibling_notes hphase refused grown
    | restoring entry todo =>
      refine called (by simp [publication, hphase]) (by simp [Watched.Spoils, hphase]) (by rw [hphase]; rfl) ?_
      simp only [onCall, hphase]
      exact onRestore_moves s entry todo refused
    | republishing entry current todo =>
      refine called (by simp [publication, hphase]) (by simp [Watched.Spoils, hphase]) (by rw [hphase]; rfl) ?_
      simp only [onCall, hphase]
      exact onRepublish_moves s entry current todo refused grown
  | external r plan seedNamespace grown => exact same _ rfl rfl rfl rfl
  | remove r => exact same _ rfl rfl rfl rfl
  | reconfigured globalGeneration => exact same _ rfl rfl rfl rfl

end DriveState

/-- Related lists stay related exactly if related entries are appended. -/
theorem forall₂_concat {α β : Type} {R : α → β → Prop} {l : List α} {l' : List β} (h : List.Forall₂ R l l') (a : α)
    (b : β) : List.Forall₂ R (l ++ [a]) (l' ++ [b]) ↔ R a b := by
  induction h with
  | nil => simp
  | cons hab _ ih => simp [hab, ih]

namespace Watched
variable {d : Drive}

/-- The records are numbered like the beginning of the tape, each is counted, and
the publication that waits for its record is the last one. -/
structure Tracked (d : Drive) (w : Watched) : Prop where
  applied : w.state.applied = w.state.events.length
  order : w.state.events.map (·.compiledIndex) ++ w.state.phase.todo.map (·.compiledIndex) <+:
    d.compiled.events.map (·.compiledIndex)
  waits : ∀ a generation, w.state.phase = .readingSibling a generation → ∃ init p, w.published = init ++ [p] ∧
    p.event = a.event ∧ p.generations a.event.action.resource.direction = some generation

theorem reading_none {phase : DrivePhase} (h : phase.reading = none) (a : Applying) (generation : Nat) :
    phase ≠ .readingSibling a generation := by
  rintro rfl
  cases h

theorem Tracked.moves {w : Watched} {s : DriveState} {todo : List CompiledEventV2}
    (happlied : s.applied = s.events.length)
    (horder : s.events.map (·.compiledIndex) ++ todo.map (·.compiledIndex) <+: d.compiled.events.map (·.compiledIndex))
    (hm : DriveState.Moves s w.state todo) : Tracked d w := by
  refine ⟨?_, ?_, fun a generation hp => absurd hp (reading_none hm.reading a generation)⟩
  · rw [hm.applied, hm.events, happlied]
  · rw [hm.events]
    obtain ⟨rest, hrest⟩ := hm.todo
    refine List.IsPrefix.trans ?_ horder
    rw [← hrest, List.map_append, ← List.append_assoc]
    exact List.prefix_append _ _

theorem step_tracked {w : Watched} (h : Tracked d w) (op : DriveState.Op) : Tracked d (w.step d op) := by
  cases w.state.step_notes (d := d) op with
  | same he ha hp hsilent _ =>
    refine ⟨?_, ?_, ?_⟩
    · simp only [step, he, ha, h.applied]
    · simp only [step, he, hp]
      exact h.order
    · intro a generation hphase
      simp only [step, hp] at hphase
      simpa [step, hsilent] using h.waits a generation hphase
  | moves _ _ _ hm => exact .moves h.applied h.order hm
  | published a generation p _ hphase htodo he ha hpub hevent hgen _ =>
    refine ⟨?_, ?_, ?_⟩
    · simp only [step, he, ha, h.applied]
    · have horder := h.order
      rw [htodo] at horder
      simp only [step, he, hphase]
      exact horder
    · intro a' generation' hphase'
      simp only [step, hphase, DrivePhase.readingSibling.injEq] at hphase'
      obtain ⟨rfl, rfl⟩ := hphase'
      exact ⟨w.published, p, by simp [step, hpub], hevent, hgen⟩
  | direct a generation p result _ htodo _ _ _ hrecords hm _ =>
    have horder := h.order
    rw [htodo] at horder
    refine .moves (by simp [h.applied]) ?_ hm
    simpa [hrecords.1] using horder
  | lost a generation hphase _ hm _ =>
    refine .moves h.applied ?_ hm
    have horder := h.order
    refine List.IsPrefix.trans ?_ horder
    simp
  | recorded a generation other result hphase _ hrecords hm _ =>
    have horder := h.order
    rw [hphase] at horder
    refine .moves (by simp [h.applied]) ?_ hm
    simpa [hrecords.1, DrivePhase.todo] using horder

/-- A step keeps the evidence complete exactly if it spoils nothing. -/
theorem step_complete_iff {w : Watched} (hc : w.Complete) (h : Tracked d w) (op : DriveState.Op) :
    (w.step d op).Complete ↔ ¬ w.Spoils op := by
  unfold Complete due at hc ⊢
  cases w.state.step_notes (d := d) op with
  | same he ha hp hsilent hspares =>
    simp only [step, he, hp, hsilent, Option.toList_none, List.append_nil, hc, hspares w.published, not_false_eq_true]
  | moves hidle hsilent hspares hm =>
    simp only [hidle, Option.isSome_none, Bool.false_eq_true, if_false] at hc
    simp only [step, hm.events, hm.reading, hsilent, Option.toList_none, List.append_nil, Option.isSome_none,
      Bool.false_eq_true, if_false, hc, hspares w.published, not_false_eq_true]
  | published a generation p hidle hphase _ he _ hpub _ _ hspares =>
    simp only [hidle, Option.isSome_none, Bool.false_eq_true, if_false] at hc
    simp only [step, he, hphase, DrivePhase.reading, hpub, Option.toList_some, List.dropLast_concat, Option.isSome_some,
      if_true, hc, hspares w.published, not_false_eq_true]
  | direct a generation p result hidle _ hpub hevent hgen hrecords hm hspoils =>
    simp only [hidle, Option.isSome_none, Bool.false_eq_true, if_false] at hc
    rw [hspoils w.published, not_not]
    simp only [step, hm.events, hm.reading, hpub, Option.toList_some, Option.isSome_none, Bool.false_eq_true, if_false]
    rw [forall₂_concat hc, hrecords.2 p hevent]
    simp [hgen]
  | lost a generation hphase hsilent hm hspoils =>
    obtain ⟨init, p, hpublished, -, -⟩ := h.waits a generation hphase
    simp only [hphase, DrivePhase.reading, Option.isSome_some, if_true, hpublished, List.dropLast_concat] at hc
    simp only [step, hm.events, hm.reading, hsilent, Option.toList_none, List.append_nil, Option.isSome_none,
      Bool.false_eq_true, if_false, hspoils w.published, not_true_eq_false, iff_false]
    intro hcomplete
    have hlen := hcomplete.length_eq
    rw [hpublished, hc.length_eq] at hlen
    simp at hlen
  | recorded a generation other result hphase hsilent hrecords hm hspoils =>
    obtain ⟨init, p, hpublished, hevent, hgen⟩ := h.waits a generation hphase
    simp only [hphase, DrivePhase.reading, Option.isSome_some, if_true, hpublished, List.dropLast_concat] at hc
    rw [hspoils w.published, not_not]
    simp only [step, hm.events, hm.reading, hsilent, Option.toList_none, List.append_nil, Option.isSome_none,
      Bool.false_eq_true, if_false, hpublished]
    rw [forall₂_concat hc, hrecords.2 p hevent]
    simp [hgen]

theorem start_tracked (d : Drive) (t : Target) (owned : Owned) : Tracked d ⟨.start d t owned, []⟩ :=
  .moves rfl (by simp) (DriveState.next_moves _ d.compiled.events)

theorem start_complete (d : Drive) (t : Target) (owned : Owned) : Complete ⟨.start d t owned, []⟩ := by
  have hm : DriveState.Moves _ (DriveState.start d t owned) _ := DriveState.next_moves _ d.compiled.events
  simp only [Complete, due, hm.events, hm.reading]
  exact .nil

/-- In every run of a compiled schedule the records are counted and numbered from
zero. They are those of the publications after every step exactly if no step
spoils one. -/
theorem evidence_complete_iff {source : ScenarioScheduleV2} {d : Drive}
    (hcompiled : compileSchedule source = .ok d.compiled) (t : Target) (owned : Owned) (ops : List DriveState.Op) :
    let w : Watched := ⟨.start d t owned, []⟩
    let s := (run (step d) w ops).state
    ((∀ pre, pre <+: ops → (run (step d) w pre).Complete) ↔ Along (step d) (fun w op => ¬ w.Spoils op) w ops) ∧
      s.applied = s.events.length ∧ s.events.map (·.compiledIndex) = List.range s.events.length := by
  intro w s
  have htracked : Tracked d (run (step d) w ops) :=
    run_inv (Tracked d) (fun _ op h => step_tracked h op) (start_tracked d t owned) ops
  refine ⟨?_, htracked.applied, ?_⟩
  · exact prefixes_iff_along (I := Complete) (J := Tracked d) (fun _ op h => step_tracked h op)
      (fun _ op hc h => step_complete_iff hc h op) (start_complete d t owned) (start_tracked d t owned) ops
  · have hprefix : s.events.map (·.compiledIndex) <+: List.range d.compiled.events.length := by
      rw [← compileSchedule_numbered hcompiled]
      exact (List.prefix_append _ _).trans htracked.order
    have hlen := hprefix.length_le
    rw [List.prefix_iff_eq_take.1 hprefix, List.take_range]
    simp only [List.length_map, List.length_range] at hlen ⊢
    rw [Nat.min_eq_left hlen]

/-- The source of `removalDrive`. -/
def removalSource : ScenarioScheduleV2 where
  version := 2
  seed := 1
  executionKey := 2
  isolation := .strict
  cleanup := .restoreInitial
  phases := [⟨none, 0, [.removeFault "api" .upstream "slow"]⟩]
  repeatBlock := none

/-- The removal is published as generation two, beside generation one. -/
theorem evidence_complete_removal :
    let w : Watched := ⟨.start removalDrive (.before apiPolicies 1) apiOwned, []⟩
    let ops : List DriveState.Op := [.due 0, .call none 0, .call none 0, .call none 0]
    (run (step removalDrive) w ops).state.events.map (fun record => (record.upstreamGeneration, record.downstreamGeneration)) =
        [(2, 1)] ∧
      (run (step removalDrive) w ops).Complete := by
  intro w ops
  refine ⟨by decide, ?_⟩
  have hspares : Along (step removalDrive) (fun w op => ¬ w.Spoils op) w ops :=
    ⟨show ¬ Spoils _ _ by decide, show ¬ Spoils _ _ by decide, show ¬ Spoils _ _ by decide,
      show ¬ Spoils _ _ by decide, trivial⟩
  exact (@evidence_complete_iff removalSource removalDrive rfl _ _ ops).1.2 hspares ops (List.prefix_refl _)

/-- The proxy is deleted behind the publication: the event took effect, and has no
record. -/
theorem deleted_before_record :
    ¬ ∀ (source : ScenarioScheduleV2) (d : Drive) (t : Target) (owned : Owned) (ops : List DriveState.Op),
      compileSchedule source = .ok d.compiled → (run (step d) ⟨.start d t owned, []⟩ ops).Complete := by
  intro hall
  have hcomplete := hall removalSource removalDrive (.before apiPolicies 1) apiOwned
    [.due 0, .call none 0, .call none 0, .remove apiUpstream, .remove ⟨"api", .downstream, .stream⟩, .call none 0] rfl
  have hlen := hcomplete.length_eq
  exact absurd hlen (by decide)

end Watched

end Eggchaos
