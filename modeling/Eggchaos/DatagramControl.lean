import Eggchaos.Proxy
import Eggchaos.Lib.Runs
import Eggchaos.DatagramPlan
/-!
# Datagram fault edits

`add_datagram_fault`, `update_datagram_fault`, `remove_datagram_fault` and
`publish_datagram_plan` on one datagram proxy that stays. An edit reads a plan,
computes the next one and publishes it, each in a section of its own under the
registry lock, so any number of calls run interleaved. A section either only
reads (`DatagramTask.read`) or attempts one publication (`DatagramTask.attempt`),
which the generation it expects guards.

The log keeps every publication with its caller and what it was for.
-/

namespace Eggchaos
open Lib

/-- The other direction. -/
def Direction.opposite : Direction → Direction
  | .upstream => .downstream
  | .downstream => .upstream

@[simp] theorem Direction.opposite_opposite (d : Direction) : d.opposite.opposite = d := by cases d <;> rfl

theorem Direction.opposite_ne (d : Direction) : d.opposite ≠ d := by cases d <;> simp [opposite]

/-- A change of a fault; a probability that is not finite is `none`. -/
structure DatagramFaultPatch where
  probability : Option (Option ℚ)
  kind : Option DatagramFaultKind
deriving DecidableEq, Repr

/-- The fault with the patch's values in place. -/
def DatagramFaultPatch.patched (patch : DatagramFaultPatch) (fault : DatagramFaultSpec) :
    Except ControlError DatagramFaultSpec :=
  match patch.probability with
  | none => .ok { fault with kind := patch.kind.getD fault.kind }
  | some value =>
    match checkProbability value with
    | .error e => .error e
    | .ok probability => .ok { fault with probability, kind := patch.kind.getD fault.kind }

inductive DatagramFaultOp where
  | add (direction : Direction) (fault : DatagramFaultSpec)
  | update (id : String) (patch : DatagramFaultPatch)
  | remove (id : String)
  /-- A scenario's publication, or any other of a whole plan. -/
  | publish (direction : Direction) (plan : DatagramPlan) (seedNamespace : UInt64) (expected : Option Nat)
deriving DecidableEq, Repr

inductive DatagramReply where
  | added (direction : Direction) (fault : DatagramFaultSpec)
  | updated (direction : Direction) (fault : DatagramFaultSpec)
  | removed (direction : Direction)
  | published
deriving DecidableEq, Repr

/-- What a publication does to the plan. -/
inductive DatagramEdit where
  | add (fault : DatagramFaultSpec)
  | update (id : String) (patch : DatagramFaultPatch)
  | remove (id : String)
  | replace (plan : DatagramPlan)
deriving DecidableEq, Repr

/-- The arguments of one guarded publication. -/
structure DatagramAttempt where
  direction : Direction
  edit : DatagramEdit
  plan : DatagramPlan
  seedNamespace : UInt64
  expected : Option Nat

/-- Where a call is, with the values it has read. -/
inductive DatagramTask where
  | adding (direction : Direction) (fault : DatagramFaultSpec)
  | addChecking (direction : Direction) (fault : DatagramFaultSpec) (plan : DatagramPlan) (generation : Nat)
      (seedNamespace : UInt64)
  | addPublishing (direction : Direction) (fault : DatagramFaultSpec) (plan : DatagramPlan) (generation : Nat)
      (seedNamespace : UInt64)
  /-- Published; the opposite plan is read again. -/
  | addVerifying (direction : Direction) (fault : DatagramFaultSpec)
  | addRereading (direction : Direction) (fault : DatagramFaultSpec)
  | addCompensating (direction : Direction) (fault : DatagramFaultSpec) (plan : DatagramPlan) (generation : Nat)
      (seedNamespace : UInt64)
  | updating (direction : Direction) (id : String) (patch : DatagramFaultPatch)
  | updatePublishing (direction : Direction) (id : String) (patch : DatagramFaultPatch) (fault : DatagramFaultSpec)
      (plan : DatagramPlan) (generation : Nat) (seedNamespace : UInt64)
  | removing (direction : Direction) (id : String)
  | removePublishing (direction : Direction) (id : String) (plan : DatagramPlan) (generation : Nat)
      (seedNamespace : UInt64)
  | publishing (direction : Direction) (plan : DatagramPlan) (seedNamespace : UInt64) (expected : Option Nat)
  | done (result : Except ControlError DatagramReply)

def alreadyExists : ControlError := .conflict "datagram fault already exists"
def acrossDirections : ControlError :=
  .conflict "datagram fault id must be unique across directions for path lookup"
def faultNotFound (id name : String) : ControlError := .notFound ("fault " ++ id ++ " on " ++ name)

/-- What a call does before its first section. -/
def DatagramFaultOp.begin : DatagramFaultOp → DatagramTask
  | .add direction fault => .adding direction fault
  | .update id patch =>
    if patch.probability.isNone && patch.kind.isNone then
      .done (.error (.invalid "fault patch must include probability or kind"))
    else match patch.probability.map checkProbability with
      | some (.error e) => .done (.error e)
      | some (.ok _) | none => .updating .upstream id patch
  | .remove id => .removing .upstream id
  | .publish direction plan seedNamespace expected => .publishing direction plan seedNamespace expected

structure DatagramCall where
  op : DatagramFaultOp
  task : DatagramTask

structure DatagramPublication where
  caller : Nat
  direction : Direction
  edit : DatagramEdit
  policy : PublishedDatagramPolicy

/-- The name and the policies of one proxy, the calls on it, and the publications
made so far, newest first. -/
structure DatagramControl where
  name : String
  policy : Direction → PublishedDatagramPolicy
  calls : List DatagramCall
  log : List DatagramPublication

namespace DatagramPlan

/-- Some fault of the plan has the id. -/
def hasId (plan : DatagramPlan) (id : FaultId) : Bool := plan.faults.any (·.id = id)

end DatagramPlan

/-- The position of the first fault with an id. -/
def firstWithId (id : String) (faults : List DatagramFaultSpec) : Nat := faults.findIdx (·.id.value = id)

namespace DatagramTask

/-- The publication that the call's next section attempts, if it does. -/
def attempt : DatagramTask → Option DatagramAttempt
  | addPublishing direction fault plan generation seedNamespace =>
    some ⟨direction, .add fault, plan, seedNamespace, some generation⟩
  | addCompensating direction fault plan generation seedNamespace =>
    some ⟨direction, .remove fault.id.value, plan, seedNamespace, some generation⟩
  | updatePublishing direction id patch _ plan generation seedNamespace =>
    some ⟨direction, .update id patch, plan, seedNamespace, some generation⟩
  | removePublishing direction id plan generation seedNamespace =>
    some ⟨direction, .remove id, plan, seedNamespace, some generation⟩
  | publishing direction plan seedNamespace expected =>
    some ⟨direction, .replace plan, plan, seedNamespace, expected⟩
  | adding _ _ | addChecking _ _ _ _ _ | addVerifying _ _ | addRereading _ _ | updating _ _ _ | removing _ _ | done _ =>
    none

/-- Where a call is after its publication. -/
def published : DatagramTask → DatagramTask
  | addPublishing direction fault _ _ _ => addVerifying direction fault
  | addCompensating _ _ _ _ _ => done (.error acrossDirections)
  | updatePublishing direction _ _ fault _ _ _ => done (.ok (.updated direction fault))
  | removePublishing direction _ _ _ _ => done (.ok (.removed direction))
  | publishing _ _ _ _ => done (.ok .published)
  | task => task

/-- Where a call is after its publication was refused. The error of the
compensating publication is dropped. -/
def refused (e : ControlError) : DatagramTask → DatagramTask
  | addCompensating _ _ _ _ _ => done (.error acrossDirections)
  | addPublishing _ _ _ _ _ | updatePublishing _ _ _ _ _ _ _ | removePublishing _ _ _ _ _ | publishing _ _ _ _ =>
    done (.error e)
  | task => task

/-- A section that reads: `policy` is what it sees. -/
def read (name : String) (policy : Direction → PublishedDatagramPolicy) : DatagramTask → DatagramTask
  | adding direction fault =>
    let base := policy direction
    if base.plan.hasId fault.id then done (.error alreadyExists)
    else addChecking direction fault base.plan base.generation base.seedNamespace
  | addChecking direction fault plan generation seedNamespace =>
    if (policy direction.opposite).plan.hasId fault.id then done (.error acrossDirections)
    else match DatagramPlan.new (plan.faults ++ [fault]) with
      | .error e => done (.error (.invalid e))
      | .ok plan => addPublishing direction fault plan generation seedNamespace
  | addVerifying direction fault =>
    if (policy direction.opposite).plan.hasId fault.id then addRereading direction fault
    else done (.ok (.added direction fault))
  | addRereading direction fault =>
    let current := policy direction
    match DatagramPlan.new (current.plan.faults.filter (·.id ≠ fault.id)) with
    | .error _ => done (.error acrossDirections)
    | .ok plan => addCompensating direction fault plan current.generation current.seedNamespace
  | updating direction id patch =>
    let base := policy direction
    match base.plan.faults.find? (·.id.value = id) with
    | some fault =>
      match patch.patched fault with
      | .error e => done (.error e)
      | .ok fault =>
        match DatagramPlan.new (base.plan.faults.set (firstWithId id base.plan.faults) fault) with
        | .error e => done (.error (.invalid e))
        | .ok plan => updatePublishing direction id patch fault plan base.generation base.seedNamespace
    | none =>
      match direction with
      | .upstream => updating .downstream id patch
      | .downstream => done (.error (faultNotFound id name))
  | removing direction id =>
    let base := policy direction
    if base.plan.faults.any (·.id.value = id) then
      match DatagramPlan.new (base.plan.faults.filter (·.id.value ≠ id)) with
      | .error e => done (.error (.invalid e))
      | .ok plan => removePublishing direction id plan base.generation base.seedNamespace
    else match direction with
      | .upstream => removing .downstream id
      | .downstream => done (.error (faultNotFound id name))
  | task => task

end DatagramTask

namespace DatagramControl

open Function (update)

theorem next_fits {generation : Nat} (h : generation < u64Max) : generation + 1 ≤ u64Max := h

/-- `publish_fault_plan`: the policy's next generation, unless the one that is
expected has moved. -/
def publish (s : DatagramControl) (caller : Nat) (a : DatagramAttempt) : Except ControlError DatagramControl :=
  match hvalid : a.plan.validate with
  | .error e => .error (.invalid e)
  | .ok () =>
    let current := s.policy a.direction
    match a.expected.filter (· ≠ current.generation) with
    | some expected =>
      .error (.conflict ("generation moved from " ++ toString expected ++ " to " ++ toString current.generation))
    | none =>
      if h : current.generation < u64Max then
        let policy : PublishedDatagramPolicy :=
          ⟨current.generation + 1, a.plan, a.seedNamespace, next_fits h, hvalid⟩
        .ok { s with
          policy := update s.policy a.direction policy
          log := ⟨caller, a.direction, a.edit, policy⟩ :: s.log }
      else .error (.invalid "generation overflow")

/-- Call `i` goes on at `task`. -/
def goto (s : DatagramControl) (i : Nat) (task : DatagramTask) : DatagramControl :=
  { s with calls := s.calls.modify i fun call => { call with task } }

/-- The next section of call `i`. -/
def proceed (s : DatagramControl) (i : Nat) (task : DatagramTask) : DatagramControl :=
  match task.attempt with
  | none => s.goto i (task.read s.name s.policy)
  | some a =>
    match s.publish i a with
    | .error e => s.goto i (task.refused e)
    | .ok s' => s'.goto i task.published

end DatagramControl

inductive DatagramEvent where
  | call (op : DatagramFaultOp)
  | proceed (i : Nat)
deriving DecidableEq, Repr

namespace DatagramControl

/-- A call arrives, or one goes on. -/
def step (s : DatagramControl) : DatagramEvent → DatagramControl
  | .call op => { s with calls := s.calls ++ [⟨op, op.begin⟩] }
  | .proceed i =>
    match s.calls[i]? with
    | none => s
    | some call => s.proceed i call.task

/-- A proxy with the given policies and no calls. -/
def start (name : String) (first : Direction → PublishedDatagramPolicy) : DatagramControl := ⟨name, first, [], []⟩

/-! ## What a step can do -/

open Function (update)

variable {s s' : DatagramControl} {i : Nat}

@[simp] theorem goto_policy (s : DatagramControl) (i : Nat) (task : DatagramTask) : (s.goto i task).policy = s.policy := rfl
@[simp] theorem goto_log (s : DatagramControl) (i : Nat) (task : DatagramTask) : (s.goto i task).log = s.log := rfl
@[simp] theorem goto_length (s : DatagramControl) (i : Nat) (task : DatagramTask) :
    (s.goto i task).calls.length = s.calls.length := List.length_modify _ _ _

theorem goto_call {call : DatagramCall} (h : s.calls[i]? = some call) (task : DatagramTask) (j : Nat) :
    (s.goto i task).calls[j]? = if j = i then some ⟨call.op, task⟩ else s.calls[j]? := by
  unfold goto
  rw [List.getElem?_modify]
  by_cases hj : j = i
  · rw [if_pos hj, hj, h]
    simp
  · rw [if_neg hj]
    simp [Ne.symm hj]

/-- The state with a policy published by call `i`. -/
def withPublication (s : DatagramControl) (i : Nat) (a : DatagramAttempt) (policy : PublishedDatagramPolicy) :
    DatagramControl :=
  { s with
    policy := update s.policy a.direction policy
    log := ⟨i, a.direction, a.edit, policy⟩ :: s.log }

/-- A publication that succeeds found the generation it expects, and is the next one. -/
structure Publishes (s : DatagramControl) (a : DatagramAttempt) (policy : PublishedDatagramPolicy) : Prop where
  expected : ∀ generation, a.expected = some generation → generation = (s.policy a.direction).generation
  generation : policy.generation = (s.policy a.direction).generation + 1
  plan : policy.plan = a.plan

theorem publish_ok {a : DatagramAttempt} (h : s.publish i a = .ok s') :
    ∃ policy, s.Publishes a policy ∧ s' = s.withPublication i a policy := by
  unfold publish at h
  split at h
  · cases h
  · simp only at h
    split at h
    · cases h
    · next hexpected =>
      split at h
      · cases h
        refine ⟨_, ⟨?_, rfl, rfl⟩, rfl⟩
        intro generation hgeneration
        rw [hgeneration] at hexpected
        simpa [Option.filter] using hexpected
      · cases h

/-- What the next section of a call can do: it reads, its publication is
refused, or it publishes. -/
theorem proceed_cases (s : DatagramControl) (i : Nat) (task : DatagramTask) :
    task.attempt = none ∧ s.proceed i task = s.goto i (task.read s.name s.policy) ∨
    ∃ a, task.attempt = some a ∧
      ((∃ e, s.publish i a = .error e ∧ s.proceed i task = s.goto i (task.refused e)) ∨
        ∃ policy, s.Publishes a policy ∧ s.proceed i task = (s.withPublication i a policy).goto i task.published) := by
  unfold proceed
  cases hattempt : task.attempt with
  | none => exact .inl ⟨rfl, rfl⟩
  | some a =>
    refine .inr ⟨a, rfl, ?_⟩
    cases hpublish : s.publish i a with
    | error e => exact .inl ⟨e, rfl, by simp only [hpublish]⟩
    | ok s' =>
      obtain ⟨policy, hpublishes, rfl⟩ := publish_ok hpublish
      exact .inr ⟨policy, hpublishes, by simp only [hpublish]⟩

theorem step_proceed {call : DatagramCall} (h : s.calls[i]? = some call) :
    s.step (.proceed i) = s.proceed i call.task := by
  simp only [step, h]

theorem step_proceed_none (h : s.calls[i]? = none) : s.step (.proceed i) = s := by
  simp only [step, h]

end DatagramControl

end Eggchaos
