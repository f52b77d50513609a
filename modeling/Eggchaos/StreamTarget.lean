import Eggchaos.Isolation
import Eggchaos.Publishers
import Eggchaos.ServerRuns
import Eggchaos.Lib.Keyed
import Mathlib.Data.List.Dedup
/-!
# The schedule driver over in-process policies

`StreamPolicyTarget` of `stream_target.rs` lets the driver publish to pairs of live
policies that somebody else made, registered under names. The policies have no
owner here: whoever holds one may publish to it at any time, under no name or
under several, and the two directions of a name may share one.

A step is one call of the driver, or an operation of somebody else. Every run is a
run of the driver on the contract of `target.rs` (`PolicyRun.step_refines`): what a
publication does under other names than its own is there a publication of
somebody else. So a strict run over these policies keeps what others publish too.
-/

namespace Eggchaos
open Lib
open Function (update)

/-- The two policies of a name. A `LivePolicy` is shared by its clones, so a resource
says which ones it has. -/
structure StreamResource where
  upstream : Nat
  downstream : Nat
deriving DecidableEq, Repr

/-- `StreamPolicyTarget::directional`. -/
def StreamResource.directional (resource : StreamResource) : Direction → Nat
  | .upstream => resource.upstream
  | .downstream => resource.downstream

/-- `policies` is what each policy holds, registered or not. -/
structure StreamPolicyTarget where
  resources : List (String × StreamResource)
  policies : Nat → LivePolicy
  globalGeneration : Nat
  keyed : Keyed Prod.fst resources

structure TargetSnapshot where
  generation : Nat
  plan : TargetPlan
deriving DecidableEq, Repr

def maxResourceNameBytes : Nat := 128

namespace StreamPolicyTarget

def capabilities : TargetCapabilities := ⟨true, false⟩

theorem keyed_insert {resources : List (String × StreamResource)} (h : Keyed Prod.fst resources) (name : String)
    (resource : StreamResource) : Keyed Prod.fst (resources.filter (·.1 ≠ name) ++ [(name, resource)]) := by
  refine Keyed.append_fresh (h.sublist List.filter_sublist) ?_
  intro entry hentry
  simpa using (List.mem_filter.1 hentry).2

/-- `register`: a name that is registered already gets the new pair. -/
def register (t : StreamPolicyTarget) (name : String) (resource : StreamResource) :
    Except TargetError StreamPolicyTarget :=
  if name = "" ∨ maxResourceNameBytes < name.utf8ByteSize then
    .error (.validation (bounded s!"resource name must be 1..={maxResourceNameBytes} bytes"))
  else
    .ok { t with
      resources := t.resources.filter (·.1 ≠ name) ++ [(name, resource)]
      keyed := keyed_insert t.keyed name resource }

def lookup (t : StreamPolicyTarget) (r : ScheduleResource) : Except TargetError StreamResource :=
  if r.transport ≠ .stream then
    .error (.unsupportedCapability (bounded "stream-only target cannot apply datagram actions"))
  else
    match t.resources.lookup r.proxy with
    | none => .error (.missingResource (bounded s!"stream resource {r.proxy} not found"))
    | some resource => .ok resource

def snapshot (t : StreamPolicyTarget) (r : ScheduleResource) : Except TargetError TargetSnapshot := do
  let entry ← t.lookup r
  let snapshot := (t.policies (entry.directional r.direction)).snapshot
  return ⟨snapshot.generation, .stream snapshot.plan⟩

def currentGeneration (t : StreamPolicyTarget) (r : ScheduleResource) : Except TargetError Nat := do
  let entry ← t.lookup r
  return (t.policies (entry.directional r.direction)).snapshot.generation

/-- A policy was published to. -/
def set (t : StreamPolicyTarget) (id : Nat) (policy : LivePolicy) : StreamPolicyTarget :=
  { t with policies := update t.policies id policy }

/-- `fetch_add`. -/
def count (t : StreamPolicyTarget) : StreamPolicyTarget :=
  { t with globalGeneration := (t.globalGeneration + 1) % 2 ^ 64 }

def publish (t : StreamPolicyTarget) (r : ScheduleResource) (expected : Nat) (plan : TargetPlan) (seedNamespace : UInt64) :
    Except TargetError Nat × StreamPolicyTarget :=
  match t.lookup r with
  | .error e => (.error e, t)
  | .ok entry =>
    match plan with
    | .datagram _ => (.error (.unsupportedCapability (bounded "stream-only target cannot publish datagram plans")), t)
    | .stream plan =>
      let id := entry.directional r.direction
      match (t.policies id).publishExpected plan seedNamespace expected with
      | (.ok snapshot, policy) => (.ok snapshot.generation, (t.set id policy).count)
      | (.error (.invalid e), _) => (.error (.validation (bounded e.message)), t)
      | (.error (.conflict c), _) => (.error (.generationConflict c.expected c.found), t)

/-- The policy of a resource. -/
def policyOf (t : StreamPolicyTarget) (r : ScheduleResource) : Option Nat :=
  (t.lookup r).toOption.map (·.directional r.direction)

/-- The resources that have this policy. -/
def resourcesOf (t : StreamPolicyTarget) (id : Nat) : List ScheduleResource :=
  (t.resources.flatMap fun (name, _) => [⟨name, .upstream, .stream⟩, ⟨name, .downstream, .stream⟩]).filter
    fun r => t.policyOf r = some id

/-- What the driver sees of the target, beside who published it. -/
def shown (t : StreamPolicyTarget) (origin : ScheduleResource → Origin) : Target where
  cells r := (t.policyOf r).map fun id =>
    let snapshot := (t.policies id).snapshot
    ⟨snapshot.generation, .stream snapshot.plan, snapshot.seedNamespace, origin r⟩
  top r := ((t.policyOf r).map fun id => (t.policies id).snapshot.generation).getD 0
  globalGeneration := t.globalGeneration

/-- What the resources hold before a run. -/
def found (t : StreamPolicyTarget) (r : ScheduleResource) : Option (Nat × TargetPlan × UInt64) :=
  (t.policyOf r).map fun id =>
    let snapshot := (t.policies id).snapshot
    (snapshot.generation, .stream snapshot.plan, snapshot.seedNamespace)

end StreamPolicyTarget

/-! ## Runs -/

/-- A run and its target. `origin` says who published the plan of a resource under its
own name, which nothing in the program reads. -/
structure PolicyRun where
  drive : DriveState
  stream : StreamPolicyTarget
  origin : ScheduleResource → Origin

/-- The error of an answer. -/
def refusal {α : Type} : Except TargetError α → Option TargetError
  | .error e => some e
  | .ok _ => none

namespace PolicyRun

inductive Op where
  | due (now : Nat)
  | cancelled
  /-- The call that the driver awaits. Nobody reads the target's own generation
  between the two halves of a publication, so they are one step. -/
  | call
  /-- Somebody else's call of a policy, through the target or not. -/
  | publish (id : Nat) (request : Request)
  /-- The second half of somebody else's publication through the target. -/
  | count
  | register (name : String) (resource : StreamResource)

variable (d : Drive) (s : PolicyRun)

/-- The driver goes on with what the target shows now. -/
def settle (stream : StreamPolicyTarget) (origin : ScheduleResource → Origin) : PolicyRun :=
  { drive := { s.drive with target := stream.shown origin }, stream, origin }

/-- Somebody published under these resources. -/
def marked (resources : List ScheduleResource) (r : ScheduleResource) : Origin :=
  if r ∈ resources then .external else s.origin r

/-- The call is a publication. -/
def onRequest (request : PublishRequest) : PolicyRun :=
  match s.stream.publish request.resource request.expected request.plan request.seedNamespace with
  | (.error e, _) => { s with drive := s.drive.onAnswer d (.error e) }
  | (.ok generation, stream) =>
    let others := ((s.stream.policyOf request.resource).map s.stream.resourcesOf).getD []
    let origin := fun r => if r = request.resource then .run else s.marked others r
    let s' := s.settle stream origin
    { s' with drive := s'.drive.onAnswer d (.ok ⟨generation, generation⟩) }

def onCall : PolicyRun :=
  match s.drive.request d, s.drive.reads with
  | some request, _ => s.onRequest d request
  | none, some r => { s with drive := s.drive.onCall d (refusal (s.stream.snapshot r)) 0 }
  | none, none => s

def step : Op → PolicyRun
  | .due now => { s with drive := s.drive.step d (.due now) }
  | .cancelled => { s with drive := s.drive.step d .cancelled }
  | .call => s.onCall d
  | .publish id request =>
    match request.perform (s.stream.policies id) with
    | (.error _, _) => s
    | (.ok _, policy) => s.settle (s.stream.set id policy) (s.marked (s.stream.resourcesOf id))
  | .count => s.settle s.stream.count s.origin
  | .register name resource =>
    match s.stream.register name resource with
    | .error _ => s
    | .ok stream => s.settle stream (s.marked [⟨name, .upstream, .stream⟩, ⟨name, .downstream, .stream⟩])

/-- The driver has prepared the run. -/
def start (stream : StreamPolicyTarget) (owned : Owned) : PolicyRun where
  drive := .start d (stream.shown fun _ => .initial) owned
  stream
  origin := fun _ => .initial

/-- What others do on the driver's contract where these resources get a new plan. -/
def externals (resources : List ScheduleResource) (policy : PublishedPolicy) : List DriveState.Op :=
  resources.map fun r => .external r (.stream policy.plan) policy.seedNamespace 0

/-- The steps on the driver's contract. -/
def trace : Op → List DriveState.Op
  | .due now => [.due now]
  | .cancelled => [.cancelled]
  | .call =>
    match s.drive.request d, s.drive.reads with
    | some request, _ =>
      match s.stream.publish request.resource request.expected request.plan request.seedNamespace,
        s.stream.policyOf request.resource with
      | (.error e, _), _ => [.call (some e) 0]
      | (.ok _, stream), some id =>
        .call none 0 :: externals ((s.stream.resourcesOf id).dedup.filter (· ≠ request.resource))
          (stream.policies id).snapshot ++ [.reconfigured stream.globalGeneration]
      | (.ok _, _), none => []
    | none, some r => [.call (refusal (s.stream.snapshot r)) 0]
    | none, none => []
  | .publish id request =>
    match request.perform (s.stream.policies id) with
    | (.error _, _) => []
    | (.ok _, policy) => externals (s.stream.resourcesOf id).dedup policy.snapshot
  | .count => [.reconfigured s.stream.count.globalGeneration]
  | .register name resource =>
    match s.stream.register name resource with
    | .error _ => []
    | .ok _ => [Direction.upstream, Direction.downstream].map fun direction =>
      let snapshot := (s.stream.policies (resource.directional direction)).snapshot
      .external ⟨name, direction, .stream⟩ (.stream snapshot.plan) snapshot.seedNamespace (snapshot.generation - 1)

/-- A name is registered once. -/
def Once (s : PolicyRun) : Op → Prop
  | .register name _ => s.stream.resources.lookup name = none
  | _ => True

end PolicyRun

/-! ## One call -/

namespace StreamPolicyTarget
variable {t : StreamPolicyTarget} {r : ScheduleResource}

theorem lookup_ok_iff {entry : StreamResource} :
    t.lookup r = .ok entry ↔ r.transport = .stream ∧ t.resources.lookup r.proxy = some entry := by
  unfold lookup
  by_cases hr : r.transport = .stream
  · rw [if_neg (by simp [hr])]
    cases t.resources.lookup r.proxy <;> simp [hr]
  · rw [if_pos hr]
    simp [hr]

theorem policyOf_eq_some {id : Nat} : t.policyOf r = some id ↔
    ∃ entry, t.lookup r = .ok entry ∧ entry.directional r.direction = id := by
  unfold policyOf
  cases t.lookup r with
  | error e => simp [Except.toOption]
  | ok entry => simp [Except.toOption]

theorem policyOf_stream {id : Nat} (h : t.policyOf r = some id) : r.transport = .stream := by
  obtain ⟨entry, hentry, _⟩ := policyOf_eq_some.1 h
  exact (lookup_ok_iff.1 hentry).1

theorem mem_of_lookup {name : String} {entry : StreamResource} (h : t.resources.lookup name = some entry) :
    (name, entry) ∈ t.resources := by
  obtain ⟨l, l', heq, _⟩ := List.lookup_eq_some_iff.1 h
  rw [heq]
  simp

theorem mem_resourcesOf {id : Nat} : r ∈ t.resourcesOf id ↔ t.policyOf r = some id := by
  unfold resourcesOf
  rw [List.mem_filter, decide_eq_true_eq, and_iff_right_iff_imp]
  intro h
  obtain ⟨entry, hentry, _⟩ := policyOf_eq_some.1 h
  obtain ⟨htransport, hlookup⟩ := lookup_ok_iff.1 hentry
  obtain ⟨name, direction, transport⟩ := r
  obtain rfl : transport = .stream := htransport
  refine List.mem_flatMap.2 ⟨_, mem_of_lookup hlookup, ?_⟩
  cases direction <;> simp

/-- What the driver reads off the target is what the target answers. -/
theorem snapshot_shown (t : StreamPolicyTarget) (origin : ScheduleResource → Origin) (r : ScheduleResource) :
    t.snapshot r = ((t.shown origin).read (refusal (t.snapshot r)) r).map fun cell => ⟨cell.generation, cell.plan⟩ := by
  cases hlookup : t.lookup r with
  | error e => simp [snapshot, shown, policyOf, Target.read, hlookup, refusal, Bind.bind, Except.bind, Except.map]
  | ok entry =>
    simp [snapshot, shown, policyOf, Target.read, hlookup, refusal, Bind.bind, Except.bind, Except.map, pure, Except.pure,
      Except.toOption]

theorem currentGeneration_shown (t : StreamPolicyTarget) (origin : ScheduleResource → Origin) (r : ScheduleResource) :
    t.currentGeneration r = ((t.shown origin).read (refusal (t.snapshot r)) r).map Cell.generation := by
  cases hlookup : t.lookup r with
  | error e =>
    simp [currentGeneration, snapshot, shown, policyOf, Target.read, hlookup, refusal, Bind.bind, Except.bind, Except.map]
  | ok entry =>
    simp [currentGeneration, snapshot, shown, policyOf, Target.read, hlookup, refusal, Bind.bind, Except.bind, Except.map,
      pure, Except.pure, Except.toOption]

/-- A publication that is answered with a generation: the policy of the resource was at the
expected one, and the target counts one more. -/
theorem publish_ok {expected generation : Nat} {plan : TargetPlan} {seedNamespace : UInt64} {t' : StreamPolicyTarget}
    (h : t.publish r expected plan seedNamespace = (.ok generation, t')) :
    ∃ id next, t.policyOf r = some id ∧ plan = .stream next.plan ∧ seedNamespace = next.seedNamespace ∧
      (t.policies id).current.generation = expected ∧ next.generation = expected + 1 ∧ generation = expected + 1 ∧
      t' = (t.set id ⟨next⟩).count := by
  unfold publish at h
  cases hlookup : t.lookup r with
  | error e => simp [hlookup] at h
  | ok entry =>
    cases plan with
    | datagram plan => simp [hlookup] at h
    | stream plan =>
      simp only [hlookup] at h
      have hcases := perform_cases ⟨plan, seedNamespace, some expected⟩ (t.policies (entry.directional r.direction))
      simp only [Request.perform] at hcases
      rcases hcases with ⟨e, he⟩ | ⟨next, hnext, hgeneration, hplan, hnamespace, hexpected⟩
      · rw [he] at h
        cases e <;> simp at h
      · rw [hnext] at h
        simp only [Prod.mk.injEq, Except.ok.injEq] at h
        have hbase := hexpected expected rfl
        refine ⟨_, next, policyOf_eq_some.2 ⟨entry, hlookup, rfl⟩, by rw [hplan], hnamespace.symm, hbase, ?_, ?_, h.2.symm⟩
        · rw [hgeneration, hbase]
        · rw [← h.1, hgeneration, hbase]

theorem policyOf_set (t : StreamPolicyTarget) (id : Nat) (policy : LivePolicy) (r : ScheduleResource) :
    (t.set id policy).policyOf r = t.policyOf r := rfl

/-- What is shown after a policy was published to. -/
theorem shown_set (t : StreamPolicyTarget) (id : Nat) (next : PublishedPolicy) (origin : ScheduleResource → Origin) :
    (t.set id ⟨next⟩).shown origin =
      { cells := fun r =>
          if t.policyOf r = some id then some ⟨next.generation, .stream next.plan, next.seedNamespace, origin r⟩
          else (t.shown origin).cells r
        top := fun r => if t.policyOf r = some id then next.generation else (t.shown origin).top r
        globalGeneration := t.globalGeneration } := by
  unfold shown
  congr 1
  · funext r
    rw [policyOf_set]
    cases hr : t.policyOf r with
    | none => simp [hr]
    | some id' =>
      by_cases hid : id' = id
      · simp [set, LivePolicy.snapshot, hid]
      · simp [set, hr, hid]
  · funext r
    rw [policyOf_set]
    cases hr : t.policyOf r with
    | none => simp [hr]
    | some id' =>
      by_cases hid : id' = id
      · simp [set, LivePolicy.snapshot, hid]
      · simp [set, hr, hid]

end StreamPolicyTarget

/-! ## Publications of others -/

namespace Target

/-- Others publish a plan under each of these resources. -/
theorem run_externals (d : Drive) (s : DriveState) (resources : List ScheduleResource) (hnodup : resources.Nodup)
    (policy : PublishedPolicy) :
    run (DriveState.step d) s (PolicyRun.externals resources policy) =
      { s with target :=
        { cells := fun r =>
            if r ∈ resources then
              some ⟨s.target.top r + 1, .stream policy.plan, policy.seedNamespace, .external⟩
            else s.target.cells r
          top := fun r => if r ∈ resources then s.target.top r + 1 else s.target.top r
          globalGeneration := s.target.globalGeneration } } := by
  induction resources generalizing s with
  | nil => simp [PolicyRun.externals]
  | cons r resources ih =>
    obtain ⟨hr, hnodup⟩ := List.nodup_cons.1 hnodup
    rw [PolicyRun.externals, List.map_cons, run_cons]
    refine (ih (s.step d _) hnodup).trans ?_
    simp only [DriveState.step, install]
    congr 2
    · funext r'
      by_cases heq : r' = r
      · subst heq
        simp [hr]
      · simp [heq]
    · funext r'
      by_cases heq : r' = r
      · subst heq
        simp [hr]
      · simp [heq]

end Target

/-! ## The driver's own calls -/

namespace DriveState
variable {d : Drive} {s : DriveState}

/-- A publication that is refused. -/
theorem step_refused {request : PublishRequest} (h : s.request d = some request) (e : TargetError) :
    s.step d (.call (some e) 0) = s.onAnswer d (.error e) := by
  cases hphase : s.phase with
  | publishing a plan expected =>
    simp only [step, onCall, onPublish, onAnswer, hphase, Target.publish, Target.read]
    rw [← hphase]
  | republishing entry current todo =>
    simp only [step, onCall, onRepublish, onAnswer, hphase, Target.publish, Target.read]
    rw [← hphase]
  | waiting _ | snapshotting _ | readingGeneration _ _ | readingSibling _ _ | restoring _ _ | finished =>
    simp [DriveState.request, hphase] at h

/-- A publication that is answered. -/
theorem step_answered {request : PublishRequest} (h : s.request d = some request) {cell : Cell}
    (hcell : s.target.cells request.resource = some cell) (hgeneration : cell.generation = request.expected)
    (hstream : request.resource.transport = .stream) {generation : Nat}
    (htop : s.target.top request.resource + 1 = generation) :
    s.step d (.call none 0) =
      { s.onAnswer d (.ok ⟨generation, generation⟩) with
        target := s.target.install request.resource request.plan request.seedNamespace 0 .run } := by
  subst htop
  cases hphase : s.phase with
  | publishing a plan expected =>
    simp only [DriveState.request, hphase, Option.some.injEq] at h
    subst h
    simp only at hcell hgeneration hstream
    simp [step, onCall, onPublish, onAnswer, hphase, Target.publish, Target.read, hcell, hgeneration, hstream]
  | republishing entry current todo =>
    simp only [DriveState.request, hphase, Option.some.injEq] at h
    subst h
    simp only at hcell hgeneration
    simp only [step, onCall, onRepublish, onAnswer, hphase, Target.publish, Target.read, hcell, hgeneration, ne_eq,
      not_true_eq_false, if_false, noteCleanup]
    cases todo <;> rfl
  | waiting _ | snapshotting _ | readingGeneration _ _ | readingSibling _ _ | restoring _ _ | finished =>
    simp [DriveState.request, hphase] at h

/-- A step that is no publication. -/
theorem step_unpublished {op : Op} (hrun : op.isRun = true)
    (h : ∀ refused grown, op = .call refused grown → s.request d = none) : (s.step d op).target = s.target := by
  rcases run_step_target s (d := d) hrun with hsame | ⟨_, _, a, plan, expected, hp⟩ | ⟨_, _, entry, current, todo, hp⟩
  · exact hsame
  · obtain ⟨grown, hop, -⟩ := hp.target
    have hnone := h none grown hop
    simp [DriveState.request, hp.phase] at hnone
  · obtain ⟨grown, hop, -⟩ := hp.target
    have hnone := h none grown hop
    simp [DriveState.request, hp.phase] at hnone

/-- What an answer makes of the run does not depend on the target. -/
theorem onAnswer_with {request : PublishRequest} (h : s.request d = some request)
    (hstream : request.resource.transport = .stream) (receipt : Receipt) (t : Target) :
    { s with target := t }.onAnswer d (.ok receipt) = { s.onAnswer d (.ok receipt) with target := t } := by
  cases hphase : s.phase with
  | publishing a plan expected =>
    simp only [DriveState.request, hphase, Option.some.injEq] at h
    subst h
    simp only at hstream
    simp [onAnswer, hphase, hstream]
  | republishing entry current todo =>
    simp only [onAnswer, hphase, noteCleanup]
    cases todo <;> rfl
  | waiting _ | snapshotting _ | readingGeneration _ _ | readingSibling _ _ | restoring _ _ | finished =>
    simp [DriveState.request, hphase] at h

end DriveState

/-! ## Refinement -/

namespace StreamPolicyTarget
variable {t t' : StreamPolicyTarget} {name : String} {resource : StreamResource}

theorem filter_of_lookup (h : t.resources.lookup name = none) : t.resources.filter (·.1 ≠ name) = t.resources := by
  refine List.filter_eq_self.2 fun entry hentry => ?_
  have hne := List.lookup_eq_none_iff.1 h entry hentry
  rw [decide_eq_true_eq]
  exact (bne_iff_ne.1 hne).symm

/-- A new name has its pair, and nothing else changes. -/
theorem register_ok (hnew : t.resources.lookup name = none) (h : t.register name resource = .ok t') :
    t'.policies = t.policies ∧ t'.globalGeneration = t.globalGeneration ∧
      ∀ r, t'.policyOf r = if r.proxy = name ∧ r.transport = .stream then some (resource.directional r.direction)
        else t.policyOf r := by
  unfold register at h
  split at h
  · cases h
  · simp only [Except.ok.injEq] at h
    subst h
    refine ⟨rfl, rfl, fun r => ?_⟩
    unfold policyOf lookup
    by_cases hr : r.transport = .stream
    · simp only [hr, ne_eq, not_true_eq_false, if_false, filter_of_lookup hnew, List.lookup_append, and_true]
      by_cases hname : r.proxy = name
      · simp [hname, hnew, Except.toOption]
      · have hbeq : (r.proxy == name) = false := by simpa using hname
        simp [hname, List.lookup_cons, hbeq]
    · simp [hr]

end StreamPolicyTarget

namespace PolicyRun
variable {d : Drive} {s : PolicyRun}

/-- The driver has what the target shows, and policies start at generation one. -/
structure Inv (s : PolicyRun) : Prop where
  shown : s.drive.target = s.stream.shown s.origin
  positive : ∀ id, 0 < (s.stream.policies id).current.generation

/-- What a publication comes to under the names of its policy. -/
theorem shown_published (hinv : Inv s) {id : Nat} {next : PublishedPolicy}
    (hnext : next.generation = (s.stream.policies id).current.generation + 1) :
    (s.stream.set id ⟨next⟩).shown (s.marked (s.stream.resourcesOf id)) =
      { cells := fun r =>
          if r ∈ (s.stream.resourcesOf id).dedup then
            some ⟨s.drive.target.top r + 1, .stream next.plan, next.seedNamespace, .external⟩
          else s.drive.target.cells r
        top := fun r =>
          if r ∈ (s.stream.resourcesOf id).dedup then s.drive.target.top r + 1 else s.drive.target.top r
        globalGeneration := s.drive.target.globalGeneration } := by
  rw [StreamPolicyTarget.shown_set, hinv.shown]
  congr 1
  · funext r
    simp only [List.mem_dedup, StreamPolicyTarget.mem_resourcesOf]
    by_cases hr : s.stream.policyOf r = some id
    · simp [hr, marked, StreamPolicyTarget.mem_resourcesOf, StreamPolicyTarget.shown, LivePolicy.snapshot, hnext]
    · simp [hr, marked, StreamPolicyTarget.mem_resourcesOf, StreamPolicyTarget.shown]
  · funext r
    simp only [List.mem_dedup, StreamPolicyTarget.mem_resourcesOf]
    by_cases hr : s.stream.policyOf r = some id
    · simp [hr, StreamPolicyTarget.shown, LivePolicy.snapshot, hnext]
    · simp [hr, StreamPolicyTarget.shown]

/-- What the driver's own publication comes to, under the name it is for and under the
others of its policy. -/
theorem shown_answered (hinv : Inv s) {request : PublishRequest} {id : Nat} {next : PublishedPolicy}
    (hid : s.stream.policyOf request.resource = some id)
    (hbase : (s.stream.policies id).current.generation = request.expected) (hnext : next.generation = request.expected + 1)
    (hplan : request.plan = .stream next.plan) (hnamespace : request.seedNamespace = next.seedNamespace) :
    let installed := s.drive.target.install request.resource request.plan request.seedNamespace 0 .run
    let others := (s.stream.resourcesOf id).dedup.filter (· ≠ request.resource)
    (s.stream.set id ⟨next⟩).count.shown
        (fun r => if r = request.resource then .run else s.marked (s.stream.resourcesOf id) r) =
      { cells := fun r =>
          if r ∈ others then some ⟨installed.top r + 1, .stream next.plan, next.seedNamespace, .external⟩
          else installed.cells r
        top := fun r => if r ∈ others then installed.top r + 1 else installed.top r
        globalGeneration := (s.stream.set id ⟨next⟩).count.globalGeneration } := by
  have hcount : ∀ origin, (s.stream.set id ⟨next⟩).count.shown origin =
      { (s.stream.set id ⟨next⟩).shown origin with
        globalGeneration := (s.stream.set id ⟨next⟩).count.globalGeneration } := fun _ => rfl
  simp only [hcount, StreamPolicyTarget.shown_set, hinv.shown, Target.install, List.mem_filter, List.mem_dedup,
    StreamPolicyTarget.mem_resourcesOf, decide_eq_true_eq, ne_eq]
  congr 1
  · funext r
    by_cases hr : r = request.resource
    · subst hr
      simp [hid, StreamPolicyTarget.shown, LivePolicy.snapshot, hbase, hnext, hplan, hnamespace]
    · by_cases hpolicy : s.stream.policyOf r = some id
      · simp [hr, hpolicy, marked, StreamPolicyTarget.mem_resourcesOf, StreamPolicyTarget.shown, LivePolicy.snapshot,
          hbase, hnext]
      · simp [hr, hpolicy, marked, StreamPolicyTarget.mem_resourcesOf, StreamPolicyTarget.shown]
  · funext r
    by_cases hr : r = request.resource
    · subst hr
      simp [hid, StreamPolicyTarget.shown, LivePolicy.snapshot, hbase, hnext]
    · by_cases hpolicy : s.stream.policyOf r = some id
      · simp [hr, hpolicy, StreamPolicyTarget.shown, LivePolicy.snapshot, hbase, hnext]
      · simp [hr, hpolicy, StreamPolicyTarget.shown]

theorem shown_registered (hinv : Inv s) {name : String} {resource : StreamResource} {stream : StreamPolicyTarget}
    (hnew : s.stream.resources.lookup name = none) (hpolicies : stream.policies = s.stream.policies)
    (hglobal : stream.globalGeneration = s.stream.globalGeneration)
    (hpolicyOf : ∀ r, stream.policyOf r =
      if r.proxy = name ∧ r.transport = .stream then some (resource.directional r.direction) else s.stream.policyOf r) :
    let first := fun direction => (s.stream.policies (resource.directional direction)).snapshot
    let installed := fun (t : Target) direction => t.install ⟨name, direction, .stream⟩
      (.stream (first direction).plan) (first direction).seedNamespace ((first direction).generation - 1) .external
    stream.shown (s.marked [⟨name, .upstream, .stream⟩, ⟨name, .downstream, .stream⟩]) =
      installed (installed s.drive.target .upstream) .downstream := by
  have hold : ∀ direction, s.stream.policyOf ⟨name, direction, .stream⟩ = none := by
    intro direction
    simp [StreamPolicyTarget.policyOf, StreamPolicyTarget.lookup, hnew, Except.toOption]
  have hgeneration : ∀ direction, 0 + 1 + ((s.stream.policies (resource.directional direction)).current.generation - 1) =
      (s.stream.policies (resource.directional direction)).current.generation := by
    intro direction
    have hpositive := hinv.positive (resource.directional direction)
    omega
  simp only [hinv.shown, StreamPolicyTarget.shown, Target.install, hpolicies, hglobal, hpolicyOf]
  congr 1
  · funext r
    by_cases hr : r.proxy = name ∧ r.transport = .stream
    · obtain ⟨name', direction, transport⟩ := r
      obtain ⟨rfl, rfl⟩ := hr
      cases direction <;> simp [hold, marked, LivePolicy.snapshot, hgeneration]
    · have hother : ∀ direction, r ≠ ⟨name, direction, .stream⟩ := by
        rintro direction rfl
        exact hr ⟨rfl, rfl⟩
      simp [hr, hother, marked]
  · funext r
    by_cases hr : r.proxy = name ∧ r.transport = .stream
    · obtain ⟨name', direction, transport⟩ := r
      obtain ⟨rfl, rfl⟩ := hr
      cases direction <;> simp [hold, LivePolicy.snapshot, hgeneration]
    · have hother : ∀ direction, r ≠ ⟨name, direction, .stream⟩ := by
        rintro direction rfl
        exact hr ⟨rfl, rfl⟩
      simp [hr, hother]

theorem step_call_refines (hinv : Inv s) {request : PublishRequest} (hrequest : s.drive.request d = some request) :
    (s.onRequest d request).drive = run (DriveState.step d) s.drive (s.trace d .call) := by
  unfold onRequest trace
  simp only [hrequest]
  cases hpublish : s.stream.publish request.resource request.expected request.plan request.seedNamespace with
  | mk answer t' =>
    cases answer with
    | error e =>
      simp only
      rw [run_cons, run_nil, DriveState.step_refused hrequest]
    | ok generation =>
      obtain ⟨id, next, hid, hplan, hnamespace, hbase, hnext, rfl, rfl⟩ := StreamPolicyTarget.publish_ok hpublish
      have hstream := StreamPolicyTarget.policyOf_stream hid
      have hcell : s.drive.target.cells request.resource = some ⟨request.expected,
          .stream (s.stream.policies id).current.plan, (s.stream.policies id).current.seedNamespace,
          s.origin request.resource⟩ := by
        rw [hinv.shown]
        simp [StreamPolicyTarget.shown, hid, LivePolicy.snapshot, hbase]
      have htop : s.drive.target.top request.resource = request.expected := by
        rw [hinv.shown]
        simp [StreamPolicyTarget.shown, hid, LivePolicy.snapshot, hbase]
      simp only [hid]
      rw [settle, DriveState.onAnswer_with hrequest hstream, List.cons_append, run_cons, run_append,
        DriveState.step_answered hrequest hcell rfl hstream (by rw [htop]),
        Target.run_externals _ _ _ ((List.nodup_dedup _).filter _), run_cons, run_nil]
      have hset : ((s.stream.set id ⟨next⟩).count.policies id).snapshot = next := by
        simp [StreamPolicyTarget.set, StreamPolicyTarget.count, LivePolicy.snapshot]
      simp only [DriveState.step, hset]
      congr 1
      exact shown_answered hinv hid hbase hnext hplan hnamespace

theorem step_refines (hinv : Inv s) {op : Op} (honce : s.Once op) :
    (s.step d op).drive = run (DriveState.step d) s.drive (s.trace d op) := by
  cases op with
  | due now => rfl
  | cancelled => rfl
  | call =>
    unfold step onCall
    cases hrequest : s.drive.request d with
    | some request => exact step_call_refines hinv hrequest
    | none =>
      unfold trace
      simp only [hrequest]
      cases s.drive.reads <;> rfl
  | publish id request =>
    unfold step trace
    rcases perform_cases request (s.stream.policies id) with ⟨e, he⟩ | ⟨next, hnext, hgeneration, _⟩
    · simp only [he]
      rfl
    · simp only [hnext]
      rw [Target.run_externals _ _ _ (List.nodup_dedup _), settle, shown_published hinv hgeneration]
      rfl
  | count =>
    unfold step trace settle
    rw [run_cons, run_nil]
    simp only [DriveState.step, hinv.shown]
    rfl
  | register name resource =>
    unfold step trace
    cases hregister : s.stream.register name resource with
    | error e => simp only [hregister]; rfl
    | ok stream =>
      simp only [hregister]
      obtain ⟨hpolicies, hglobal, hpolicyOf⟩ := StreamPolicyTarget.register_ok honce hregister
      simp only [List.map_cons, List.map_nil, run_cons, run_nil, DriveState.step, settle, Target.install]
      congr 1
      exact shown_registered hinv honce hpolicies hglobal hpolicyOf

/-! ## Runs of the driver over policies -/

/-- A policy that is published to has a later generation. -/
theorem positive_set (hinv : Inv s) {id : Nat} {next : PublishedPolicy}
    (hnext : next.generation = (s.stream.policies id).current.generation + 1) (id' : Nat) :
    0 < ((s.stream.set id ⟨next⟩).policies id').current.generation := by
  by_cases hid : id' = id
  · subst hid
    simp [StreamPolicyTarget.set, hnext]
  · simpa [StreamPolicyTarget.set, hid] using hinv.positive id'

theorem inv_request (hinv : Inv s) (request : PublishRequest) : Inv (s.onRequest d request) := by
  unfold onRequest
  cases hpublish : s.stream.publish request.resource request.expected request.plan request.seedNamespace with
  | mk answer t' =>
    cases answer with
    | error e => exact ⟨(ServerRun.onAnswer_target _ _).trans hinv.shown, hinv.positive⟩
    | ok generation =>
      obtain ⟨id, next, -, -, -, hbase, hnext, -, rfl⟩ := StreamPolicyTarget.publish_ok hpublish
      exact ⟨ServerRun.onAnswer_target _ _, positive_set hinv (by rw [hnext, hbase])⟩

theorem inv_step (hinv : Inv s) {op : Op} (honce : s.Once op) : Inv (s.step d op) := by
  cases op with
  | due now => exact ⟨(DriveState.step_unpublished rfl fun _ _ h => by cases h).trans hinv.shown, hinv.positive⟩
  | cancelled => exact ⟨(DriveState.step_unpublished rfl fun _ _ h => by cases h).trans hinv.shown, hinv.positive⟩
  | call =>
    unfold step onCall
    cases hrequest : s.drive.request d with
    | none =>
      cases s.drive.reads with
      | none => exact hinv
      | some r =>
        have hsame : (s.drive.step d (.call (refusal (s.stream.snapshot r)) 0)).target = s.drive.target :=
          DriveState.step_unpublished rfl fun _ _ _ => hrequest
        exact ⟨hsame.trans hinv.shown, hinv.positive⟩
    | some request => exact inv_request hinv request
  | publish id request =>
    unfold step
    rcases perform_cases request (s.stream.policies id) with ⟨e, he⟩ | ⟨next, hnext, hgeneration, _⟩
    · simp only [he]
      exact hinv
    · simp only [hnext]
      exact ⟨rfl, positive_set hinv hgeneration⟩
  | count => exact ⟨rfl, hinv.positive⟩
  | register name resource =>
    unfold step
    cases hregister : s.stream.register name resource with
    | error e =>
      simp only [hregister]
      exact hinv
    | ok stream =>
      simp only [hregister]
      obtain ⟨hpolicies, -, -⟩ := StreamPolicyTarget.register_ok honce hregister
      refine ⟨rfl, fun id => ?_⟩
      simpa [settle, hpolicies] using hinv.positive id

theorem shown_initial (t : StreamPolicyTarget) :
    t.shown (fun _ => .initial) = .before t.found t.globalGeneration := by
  unfold StreamPolicyTarget.shown Target.before StreamPolicyTarget.found
  congr 1
  · funext r
    cases t.policyOf r <;> rfl
  · funext r
    cases t.policyOf r <;> rfl

section
variable {stream : StreamPolicyTarget} (hpositive : ∀ id, 0 < (stream.policies id).current.generation) {owned : Owned}
  {ops : List Op} (honce : Along (step d) Once (start d stream owned) ops)
include hpositive

theorem inv_start : Inv (start d stream owned) := ⟨by simp [start, DriveState.start], hpositive⟩

include honce

theorem inv_run : Inv (run (step d) (start d stream owned) ops) :=
  run_inv_along Inv (fun _ _ hinv honce => inv_step hinv honce) (inv_start hpositive) honce

theorem drive_run : (run (step d) (start d stream owned) ops).drive =
    DriveState.after d (.before stream.found stream.globalGeneration) owned
      (traces (step d) (trace d) (start d stream owned) ops) := by
  rw [DriveState.after, ← shown_initial]
  exact refines_along drive (trace d) Inv (fun _ _ hinv honce => inv_step hinv honce)
    (fun _ _ hinv honce => step_refines hinv honce) (inv_start hpositive) honce

theorem isolated_run (hstrict : d.compiled.isolation = .strict)
    (hprepared : prepareInitial StreamPolicyTarget.capabilities (.before stream.found stream.globalGeneration) d.compiled =
      .ok owned) :
    (run (step d) (start d stream owned) ops).drive.Isolated (.before stream.found stream.globalGeneration)
      (owned.map (·.2.resource)) := by
  rw [drive_run hpositive honce]
  exact run_inv (fun s : DriveState => s.Isolated _ _)
    (fun s op h => DriveState.step_isolated (by simp [DriveState.strict, hstrict]) h op) (DriveState.start_isolated hprepared) _

/-- A publication of a strict run replaces the plan that the run itself put there or
found. -/
theorem strict_publication (hstrict : d.compiled.isolation = .strict)
    (hprepared : prepareInitial StreamPolicyTarget.capabilities (.before stream.found stream.globalGeneration) d.compiled =
      .ok owned) {request : PublishRequest} (hrequest : (run (step d) (start d stream owned) ops).drive.request d = some request)
    {generation : Nat} {stream' : StreamPolicyTarget}
    (hpublish : (run (step d) (start d stream owned) ops).stream.publish request.resource request.expected request.plan
      request.seedNamespace = (.ok generation, stream')) :
    (run (step d) (start d stream owned) ops).origin request.resource ≠ .external ∧
      ∃ plan, (run (step d) (start d stream owned) ops).stream.snapshot request.resource = .ok ⟨request.expected, plan⟩ ∧
        (run (step d) (start d stream owned) ops).drive.own request.resource = some plan := by
  have hinv := inv_run hpositive honce
  have hisolated := isolated_run hpositive honce hstrict hprepared
  generalize run (step d) (start d stream owned) ops = s at *
  obtain ⟨id, next, hid, -, -, hbase, -, -, -⟩ := StreamPolicyTarget.publish_ok hpublish
  have hcell : s.drive.target.cells request.resource = some ⟨request.expected, .stream (s.stream.policies id).current.plan,
      (s.stream.policies id).current.seedNamespace, s.origin request.resource⟩ := by
    rw [hinv.shown]
    simp [StreamPolicyTarget.shown, hid, LivePolicy.snapshot, hbase]
  have htop : s.drive.target.top request.resource + 1 = request.expected + 1 := by
    rw [hinv.shown]
    simp [StreamPolicyTarget.shown, hid, LivePolicy.snapshot, hbase]
  have hchange : (s.drive.step d (.call none 0)).target.cells request.resource ≠ s.drive.target.cells request.resource := by
    rw [DriveState.step_answered hrequest hcell rfl (StreamPolicyTarget.policyOf_stream hid) htop, hcell]
    simp only [Target.install, if_true, ne_eq, Option.some.injEq, Cell.mk.injEq, not_and]
    omega
  obtain ⟨cell, hfound, horigin, hown⟩ := hisolated.replaces rfl hchange
  rw [hcell] at hfound
  obtain rfl := Option.some.inj hfound
  refine ⟨horigin, _, ?_, hown⟩
  obtain ⟨entry, hentry, rfl⟩ := StreamPolicyTarget.policyOf_eq_some.1 hid
  simp only [StreamPolicyTarget.snapshot, hentry, ← hbase]
  rfl

end

/-- However others publish to the policies and register more of them, a run is one of the
driver on the contract, and what the driver reads there is what the target answers. -/
theorem run_refines (d : Drive) (stream : StreamPolicyTarget) (hpositive : ∀ id, 0 < (stream.policies id).current.generation)
    (owned : Owned) (ops : List Op) (honce : Along (step d) Once (start d stream owned) ops) :
    let s := run (step d) (start d stream owned) ops
    s.drive = DriveState.after d (.before stream.found stream.globalGeneration) owned
      (traces (step d) (trace d) (start d stream owned) ops) ∧
    ∀ r, let answer := s.drive.target.read (refusal (s.stream.snapshot r)) r
      s.stream.snapshot r = answer.map (fun cell => ⟨cell.generation, cell.plan⟩) ∧
        s.stream.currentGeneration r = answer.map Cell.generation := by
  refine ⟨drive_run hpositive honce, fun r => ?_⟩
  rw [(inv_run hpositive honce).shown]
  exact ⟨StreamPolicyTarget.snapshot_shown _ _ r, StreamPolicyTarget.currentGeneration_shown _ _ r⟩

/-- As long as no name is registered again, a strict run over these policies never replaces
what somebody else published under the name, and at its end every resource of the schedule
has its record. -/
theorem strict_run_isolated (d : Drive) (hstrict : d.compiled.isolation = .strict) (stream : StreamPolicyTarget)
    (hpositive : ∀ id, 0 < (stream.policies id).current.generation) (owned : Owned)
    (hprepared : prepareInitial StreamPolicyTarget.capabilities (.before stream.found stream.globalGeneration) d.compiled =
      .ok owned) (ops : List Op) (honce : Along (step d) Once (start d stream owned) ops) :
    let s := run (step d) (start d stream owned) ops
    (∀ request generation stream', s.drive.request d = some request →
      s.stream.publish request.resource request.expected request.plan request.seedNamespace = (.ok generation, stream') →
        s.origin request.resource ≠ .external ∧ ∃ plan, s.stream.snapshot request.resource = .ok ⟨request.expected, plan⟩ ∧
          s.drive.own request.resource = some plan) ∧
    (s.drive.phase = .finished → ∀ event ∈ d.compiled.events, ∃ record ∈ s.drive.cleanup,
      record.resource = event.action.resource) := by
  refine ⟨fun _ _ _ hrequest hpublish => strict_publication hpositive honce hstrict hprepared hrequest hpublish, ?_⟩
  intro hfinished event hevent
  obtain ⟨hcollected, -, hcovered⟩ :=
    DriveState.prepareFrom_collected (show DriveState.Collected _ [] from ⟨⟨by simp, by simp⟩, by simp⟩) hprepared
  obtain ⟨o, ho⟩ := Option.isSome_iff_exists.1 (hcovered event hevent)
  obtain ⟨hresource, -⟩ := hcollected.keyed.get_resource ho
  refine (isolated_run hpositive honce hstrict hprepared).finished_recorded hfinished ?_
  rw [← hresource]
  exact List.mem_map.2 ⟨_, Owned.get_mem ho, rfl⟩

/-! A name with a fault upstream, and the strict schedule that takes it out. -/

theorem slow_nonempty : "slow" ≠ "" := by decide
theorem slow_short : "slow".utf8ByteSize ≤ 128 := by decide

def slowFaults : FaultPlan := ⟨[⟨⟨"slow", slow_nonempty, slow_short⟩, .one, .slowClose ⟨5⟩⟩]⟩

theorem slowFaults_valid : slowFaults.validate = .ok () := by decide

def apiPolicy (id : Nat) : LivePolicy :=
  if id = 0 then .new slowFaults 7 slowFaults_valid else .new .empty 7 FaultPlan.validate_empty

def apiStream : StreamPolicyTarget := ⟨[("api", ⟨0, 1⟩)], apiPolicy, 1, by simp [Keyed]⟩

/-- Somebody publishes between the removal and its cleanup. -/
def movedOps : List Op := [.due 0, .call, .call, .call, .publish 0 ⟨.empty, 9, none⟩, .call]

theorem apiPolicy_positive (id : Nat) : 0 < (apiStream.policies id).current.generation := by
  show 0 < (apiPolicy id).current.generation
  unfold apiPolicy
  split <;> decide

theorem run_refines_moved :
    (run (step removalDrive) (start removalDrive apiStream apiOwned) movedOps).drive.cleanup =
      (DriveState.after removalDrive (.before apiStream.found 1) apiOwned
        (traces (step removalDrive) (trace removalDrive) (start removalDrive apiStream apiOwned) movedOps)).cleanup :=
  congrArg DriveState.cleanup
    (run_refines removalDrive apiStream apiPolicy_positive apiOwned movedOps (by simp [movedOps, Along, Once])).1

theorem strict_run_isolated_moved :
    ∃ record ∈ (run (step removalDrive) (start removalDrive apiStream apiOwned) movedOps).drive.cleanup,
      record.resource = apiUpstream :=
  (strict_run_isolated removalDrive rfl apiStream apiPolicy_positive apiOwned (by decide) movedOps
    (by simp [movedOps, Along, Once])).2 (by decide) ⟨0, .top 0, 0, .removeFault "api" .upstream "slow"⟩
      (by simp [removalDrive])

end PolicyRun

end Eggchaos
