import Eggchaos.DatagramControl
/-!
# Datagram fault edits are not lost

Every publication on a proxy is the edit of its call applied to the plan just
before it, since the generation it expects is the one whose plan it was computed
from (`DatagramAttempt.Ready`). The log of a run is then a chain in each
direction (`DatagramControl.Chained`), and what a call has answered says which
publications it has made (`DatagramFaultOp.Settled`).
-/

namespace Eggchaos
open Lib

/-- `after` is the edit of `before`, with every other fault and the order kept. -/
def DatagramEdit.Applies : DatagramEdit → List DatagramFaultSpec → List DatagramFaultSpec → Prop
  | .add fault, before, after => (∀ other ∈ before, other.id ≠ fault.id) ∧ after = before ++ [fault]
  | .update id patch, before, after =>
    ∃ fault fault', before.find? (·.id.value = id) = some fault ∧ patch.patched fault = .ok fault' ∧
      after = before.set (firstWithId id before) fault'
  | .remove id, before, after => after = before.filter (·.id.value ≠ id)
  | .replace plan, _, after => after = plan.faults

namespace DatagramControl

/-- The policy of a direction after the publications. -/
def latest (first : Direction → PublishedDatagramPolicy) : List DatagramPublication → Direction → PublishedDatagramPolicy
  | [], d => first d
  | p :: log, d => if p.direction = d then p.policy else latest first log d

/-- Every publication has the generation after that of the policy it replaces,
and its plan is its edit of that policy's plan. -/
def Chained (first : Direction → PublishedDatagramPolicy) : List DatagramPublication → Prop
  | [] => True
  | p :: log =>
    p.policy.generation = (latest first log p.direction).generation + 1 ∧
    p.edit.Applies (latest first log p.direction).plan.faults p.policy.plan.faults ∧
    Chained first log

/-- The edits that call `i` has published, newest first. -/
def editsBy (s : DatagramControl) (i : Nat) : List (Direction × DatagramEdit) :=
  (s.log.filter (·.caller = i)).map fun p => (p.direction, p.edit)

end DatagramControl

/-- What a call has published, given what it answers. An addition that fails
across directions may have published its fault and then its removal. -/
def DatagramFaultOp.Settled : DatagramFaultOp → Except ControlError DatagramReply → List (Direction × DatagramEdit) → Prop
  | .add d fault, .ok reply, edits => reply = .added d fault ∧ edits = [(d, .add fault)]
  | .add d fault, .error e, edits =>
    edits = [] ∨ e = acrossDirections ∧
      (edits = [(d, .add fault)] ∨ edits = [(d, .remove fault.id.value), (d, .add fault)])
  | .update id patch, .ok reply, edits => ∃ d fault, reply = .updated d fault ∧ edits = [(d, .update id patch)]
  | .remove id, .ok reply, edits => ∃ d, reply = .removed d ∧ edits = [(d, .remove id)]
  | .publish d plan _ _, .ok reply, edits => reply = .published ∧ edits = [(d, .replace plan)]
  | .update _ _, .error _, edits | .remove _, .error _, edits | .publish _ _ _ _, .error _, edits => edits = []

/-- What a call has published, given where it is. -/
def DatagramTask.Phase : DatagramTask → DatagramFaultOp → List (Direction × DatagramEdit) → Prop
  | .adding d fault, op, edits | .addChecking d fault _ _ _, op, edits | .addPublishing d fault _ _ _, op, edits =>
    op = .add d fault ∧ edits = []
  | .addVerifying d fault, op, edits | .addRereading d fault, op, edits | .addCompensating d fault _ _ _, op, edits =>
    op = .add d fault ∧ edits = [(d, .add fault)]
  | .updating _ id patch, op, edits | .updatePublishing _ id patch _ _ _ _, op, edits =>
    op = .update id patch ∧ edits = []
  | .removing _ id, op, edits | .removePublishing _ id _ _ _, op, edits => op = .remove id ∧ edits = []
  | .publishing d plan seed expected, op, edits => op = .publish d plan seed expected ∧ edits = []
  | .done result, op, edits => op.Settled result edits

/-- The attempt publishes its edit of the current plan, unless its expected
generation has gone by. -/
def DatagramAttempt.Ready (a : DatagramAttempt) (current : PublishedDatagramPolicy) : Prop :=
  (∀ before, a.edit.Applies before a.plan.faults) ∨
    ∃ generation, a.expected = some generation ∧ generation ≤ current.generation ∧
      (generation = current.generation → a.edit.Applies current.plan.faults a.plan.faults)

/-! ## One call -/

theorem DatagramFaultOp.begin_phase (op : DatagramFaultOp) : op.begin.Phase op [] := by
  cases op with
  | add d fault => exact ⟨rfl, rfl⟩
  | update id patch =>
    simp only [begin]
    split
    · exact rfl
    · split
      · exact rfl
      · exact ⟨rfl, rfl⟩
      · exact ⟨rfl, rfl⟩
  | remove id => exact ⟨rfl, rfl⟩
  | publish d plan seed expected => exact ⟨rfl, rfl⟩

namespace DatagramTask

variable {task : DatagramTask} {op : DatagramFaultOp} {edits : List (Direction × DatagramEdit)}

/-- The five sections that attempt a publication. -/
theorem attempt_cases {a : DatagramAttempt} (h : task.attempt = some a) :
    (∃ d fault plan generation seed, task = addPublishing d fault plan generation seed ∧
      a = ⟨d, .add fault, plan, seed, some generation⟩) ∨
    (∃ d fault plan generation seed, task = addCompensating d fault plan generation seed ∧
      a = ⟨d, .remove fault.id.value, plan, seed, some generation⟩) ∨
    (∃ d id patch fault plan generation seed, task = updatePublishing d id patch fault plan generation seed ∧
      a = ⟨d, .update id patch, plan, seed, some generation⟩) ∨
    (∃ d id plan generation seed, task = removePublishing d id plan generation seed ∧
      a = ⟨d, .remove id, plan, seed, some generation⟩) ∨
    ∃ d plan seed expected, task = publishing d plan seed expected ∧ a = ⟨d, .replace plan, plan, seed, expected⟩ := by
  cases task with
  | addPublishing d fault plan generation seed => exact .inl ⟨d, fault, plan, generation, seed, rfl, (Option.some.inj h).symm⟩
  | addCompensating d fault plan generation seed =>
    exact .inr (.inl ⟨d, fault, plan, generation, seed, rfl, (Option.some.inj h).symm⟩)
  | updatePublishing d id patch fault plan generation seed =>
    exact .inr (.inr (.inl ⟨d, id, patch, fault, plan, generation, seed, rfl, (Option.some.inj h).symm⟩))
  | removePublishing d id plan generation seed =>
    exact .inr (.inr (.inr (.inl ⟨d, id, plan, generation, seed, rfl, (Option.some.inj h).symm⟩)))
  | publishing d plan seed expected =>
    exact .inr (.inr (.inr (.inr ⟨d, plan, seed, expected, rfl, (Option.some.inj h).symm⟩)))
  | adding d fault => cases h
  | addChecking d fault plan generation seed => cases h
  | addVerifying d fault => cases h
  | addRereading d fault => cases h
  | updating d id patch => cases h
  | removing d id => cases h
  | done result => cases h

/-- A section that reads publishes nothing. -/
theorem Phase.read (h : task.Phase op edits) (hattempt : task.attempt = none) (name : String)
    (policy : Direction → PublishedDatagramPolicy) : (task.read name policy).Phase op edits := by
  cases task with
  | adding d fault =>
    obtain ⟨rfl, rfl⟩ := h
    simp only [DatagramTask.read]
    split
    · exact .inl rfl
    · exact ⟨rfl, rfl⟩
  | addChecking d fault plan generation seed =>
    obtain ⟨rfl, rfl⟩ := h
    simp only [DatagramTask.read]
    split
    · exact .inl rfl
    · split
      · exact .inl rfl
      · exact ⟨rfl, rfl⟩
  | addVerifying d fault =>
    obtain ⟨rfl, rfl⟩ := h
    simp only [DatagramTask.read]
    split
    · exact ⟨rfl, rfl⟩
    · exact ⟨rfl, rfl⟩
  | addRereading d fault =>
    obtain ⟨rfl, rfl⟩ := h
    simp only [DatagramTask.read]
    split
    · exact .inr ⟨rfl, .inl rfl⟩
    · exact ⟨rfl, rfl⟩
  | updating d id patch =>
    obtain ⟨rfl, rfl⟩ := h
    simp only [DatagramTask.read]
    split
    · split
      · exact rfl
      · split
        · exact rfl
        · exact ⟨rfl, rfl⟩
    · cases d with
      | upstream => exact ⟨rfl, rfl⟩
      | downstream => exact rfl
  | removing d id =>
    obtain ⟨rfl, rfl⟩ := h
    simp only [DatagramTask.read]
    split
    · split
      · exact rfl
      · exact ⟨rfl, rfl⟩
    · cases d with
      | upstream => exact ⟨rfl, rfl⟩
      | downstream => exact rfl
  | done result => exact h
  | addPublishing d fault plan generation seed => cases hattempt
  | addCompensating d fault plan generation seed => cases hattempt
  | updatePublishing d id patch fault plan generation seed => cases hattempt
  | removePublishing d id plan generation seed => cases hattempt
  | publishing d plan seed expected => cases hattempt

theorem Phase.refused (h : task.Phase op edits) {a : DatagramAttempt} (hattempt : task.attempt = some a)
    (e : ControlError) : (task.refused e).Phase op edits := by
  rcases attempt_cases hattempt with ⟨d, fault, plan, generation, seed, rfl, rfl⟩ |
    ⟨d, fault, plan, generation, seed, rfl, rfl⟩ | ⟨d, id, patch, fault, plan, generation, seed, rfl, rfl⟩ |
    ⟨d, id, plan, generation, seed, rfl, rfl⟩ | ⟨d, plan, seed, expected, rfl, rfl⟩
  · obtain ⟨rfl, rfl⟩ := h
    exact .inl rfl
  · obtain ⟨rfl, rfl⟩ := h
    exact .inr ⟨rfl, .inl rfl⟩
  · obtain ⟨rfl, rfl⟩ := h
    exact rfl
  · obtain ⟨rfl, rfl⟩ := h
    exact rfl
  · obtain ⟨rfl, rfl⟩ := h
    exact rfl

theorem Phase.published (h : task.Phase op edits) {a : DatagramAttempt} (hattempt : task.attempt = some a) :
    task.published.Phase op ((a.direction, a.edit) :: edits) := by
  rcases attempt_cases hattempt with ⟨d, fault, plan, generation, seed, rfl, rfl⟩ |
    ⟨d, fault, plan, generation, seed, rfl, rfl⟩ | ⟨d, id, patch, fault, plan, generation, seed, rfl, rfl⟩ |
    ⟨d, id, plan, generation, seed, rfl, rfl⟩ | ⟨d, plan, seed, expected, rfl, rfl⟩
  · obtain ⟨rfl, rfl⟩ := h
    exact ⟨rfl, rfl⟩
  · obtain ⟨rfl, rfl⟩ := h
    exact .inr ⟨rfl, .inr rfl⟩
  · obtain ⟨rfl, rfl⟩ := h
    exact ⟨d, fault, rfl, rfl⟩
  · obtain ⟨rfl, rfl⟩ := h
    exact ⟨d, rfl, rfl⟩
  · obtain ⟨rfl, rfl⟩ := h
    exact ⟨rfl, rfl⟩

/-- The plan that an addition has read is the current one or an earlier one, and
does not hold its id. -/
def Based (policy : Direction → PublishedDatagramPolicy) : DatagramTask → Prop
  | addChecking d fault plan generation _ =>
    (∀ other ∈ plan.faults, other.id ≠ fault.id) ∧ generation ≤ (policy d).generation ∧
      (generation = (policy d).generation → plan = (policy d).plan)
  | _ => True

/-- The call's next publication is ready. -/
def Ready (policy : Direction → PublishedDatagramPolicy) (task : DatagramTask) : Prop :=
  ∀ a, task.attempt = some a → a.Ready (policy a.direction)

end DatagramTask

theorem DatagramPlan.hasId_iff {plan : DatagramPlan} {id : FaultId} :
    plan.hasId id = true ↔ ∃ fault ∈ plan.faults, fault.id = id := by
  simp [hasId]

theorem DatagramPlan.of_not_hasId {plan : DatagramPlan} {id : FaultId} (h : ¬ plan.hasId id = true) :
    ∀ other ∈ plan.faults, other.id ≠ id :=
  fun other hother hid => h (hasId_iff.2 ⟨other, hother, hid⟩)

theorem DatagramPlan.new_faults {faults : List DatagramFaultSpec} {plan : DatagramPlan}
    (h : DatagramPlan.new faults = .ok plan) : plan.faults = faults := by
  unfold new at h
  split at h
  · cases h
  · cases h; rfl

/-- A plan computed from the policy in force is ready under its generation. -/
theorem DatagramAttempt.ready_of_current {a : DatagramAttempt} {current : PublishedDatagramPolicy}
    (hexpected : a.expected = some current.generation) (h : a.edit.Applies current.plan.faults a.plan.faults) :
    a.Ready current :=
  .inr ⟨_, hexpected, Nat.le_refl _, fun _ => h⟩

/-- A newer policy leaves every attempt as ready as it was. -/
theorem DatagramAttempt.Ready.later {a : DatagramAttempt} {current next : PublishedDatagramPolicy}
    (h : a.Ready current) (hnext : next.generation = current.generation + 1) : a.Ready next := by
  rcases h with h | ⟨generation, hexpected, hle, -⟩
  · exact .inl h
  · refine .inr ⟨generation, hexpected, by omega, fun heq => ?_⟩
    omega

/-- A ready attempt that finds the generation it expects is its edit of the
current plan. -/
theorem DatagramAttempt.Ready.applies {a : DatagramAttempt} {current : PublishedDatagramPolicy} (h : a.Ready current)
    (hexpected : ∀ generation, a.expected = some generation → generation = current.generation) :
    a.edit.Applies current.plan.faults a.plan.faults := by
  rcases h with h | ⟨generation, hsome, -, happlies⟩
  · exact h _
  · exact happlies (hexpected generation hsome)

namespace DatagramTask

variable {task : DatagramTask} {policy : Direction → PublishedDatagramPolicy}

theorem Ready.done (result : Except ControlError DatagramReply) : (DatagramTask.done result).Ready policy := by
  intro a ha
  cases ha

theorem begin_ready (op : DatagramFaultOp) : op.begin.Based policy ∧ op.begin.Ready policy := by
  cases op with
  | add d fault => exact ⟨trivial, fun a ha => by cases ha⟩
  | update id patch =>
    simp only [DatagramFaultOp.begin]
    split
    · exact ⟨trivial, Ready.done _⟩
    · split
      · exact ⟨trivial, Ready.done _⟩
      · exact ⟨trivial, fun a ha => by cases ha⟩
      · exact ⟨trivial, fun a ha => by cases ha⟩
  | remove id => exact ⟨trivial, fun a ha => by cases ha⟩
  | publish d plan seed expected =>
    refine ⟨trivial, fun a ha => ?_⟩
    cases ha
    exact .inl fun _ => rfl

/-- What a call computes from the policies it reads is ready under them. -/
theorem read_ready (hbased : task.Based policy) (hready : task.Ready policy) (name : String) :
    (task.read name policy).Based policy ∧ (task.read name policy).Ready policy := by
  cases task with
  | adding d fault =>
    simp only [DatagramTask.read]
    split
    · exact ⟨trivial, Ready.done _⟩
    · next hnew => exact ⟨⟨DatagramPlan.of_not_hasId hnew, Nat.le_refl _, fun _ => rfl⟩, fun a ha => by cases ha⟩
  | addChecking d fault plan generation seed =>
    simp only [DatagramTask.read]
    split
    · exact ⟨trivial, Ready.done _⟩
    · split
      · exact ⟨trivial, Ready.done _⟩
      · next plan' hplan =>
        refine ⟨trivial, fun a ha => ?_⟩
        cases ha
        obtain ⟨hnew, hle, hplan'⟩ := hbased
        refine .inr ⟨generation, rfl, hle, fun heq => ?_⟩
        show (∀ other ∈ (policy d).plan.faults, other.id ≠ fault.id) ∧ plan'.faults = (policy d).plan.faults ++ [fault]
        rw [← hplan' heq]
        exact ⟨hnew, DatagramPlan.new_faults hplan⟩
  | addVerifying d fault =>
    simp only [DatagramTask.read]
    split
    · exact ⟨trivial, fun a ha => by cases ha⟩
    · exact ⟨trivial, Ready.done _⟩
  | addRereading d fault =>
    simp only [DatagramTask.read]
    split
    · exact ⟨trivial, Ready.done _⟩
    · next plan hplan =>
      refine ⟨trivial, fun a ha => ?_⟩
      cases ha
      refine DatagramAttempt.ready_of_current rfl ?_
      show plan.faults = (policy d).plan.faults.filter (·.id.value ≠ fault.id.value)
      simp only [DatagramPlan.new_faults hplan, ne_eq, FaultId.value_inj]
  | updating d id patch =>
    simp only [DatagramTask.read]
    split
    · next fault hfound =>
      split
      · exact ⟨trivial, Ready.done _⟩
      · next fault' hpatched =>
        split
        · exact ⟨trivial, Ready.done _⟩
        · next plan hplan =>
          refine ⟨trivial, fun a ha => ?_⟩
          cases ha
          refine DatagramAttempt.ready_of_current rfl ?_
          exact ⟨fault, fault', hfound, hpatched, DatagramPlan.new_faults hplan⟩
    · cases d with
      | upstream => exact ⟨trivial, fun a ha => by cases ha⟩
      | downstream => exact ⟨trivial, Ready.done _⟩
  | removing d id =>
    simp only [DatagramTask.read]
    split
    · split
      · exact ⟨trivial, Ready.done _⟩
      · next plan hplan =>
        refine ⟨trivial, fun a ha => ?_⟩
        cases ha
        exact DatagramAttempt.ready_of_current rfl (DatagramPlan.new_faults hplan)
    · cases d with
      | upstream => exact ⟨trivial, fun a ha => by cases ha⟩
      | downstream => exact ⟨trivial, Ready.done _⟩
  | done result => exact ⟨trivial, hready⟩
  | addPublishing d fault plan generation seed => exact ⟨trivial, hready⟩
  | addCompensating d fault plan generation seed => exact ⟨trivial, hready⟩
  | updatePublishing d id patch fault plan generation seed => exact ⟨trivial, hready⟩
  | removePublishing d id plan generation seed => exact ⟨trivial, hready⟩
  | publishing d plan seed expected => exact ⟨trivial, hready⟩

theorem refused_ready {a : DatagramAttempt} (hattempt : task.attempt = some a) (e : ControlError) :
    (task.refused e).Based policy ∧ (task.refused e).Ready policy := by
  rcases attempt_cases hattempt with ⟨d, fault, plan, generation, seed, rfl, rfl⟩ |
    ⟨d, fault, plan, generation, seed, rfl, rfl⟩ | ⟨d, id, patch, fault, plan, generation, seed, rfl, rfl⟩ |
    ⟨d, id, plan, generation, seed, rfl, rfl⟩ | ⟨d, plan, seed, expected, rfl, rfl⟩
  all_goals exact ⟨trivial, Ready.done _⟩

theorem published_ready {a : DatagramAttempt} (hattempt : task.attempt = some a) :
    task.published.Based policy ∧ task.published.Ready policy := by
  rcases attempt_cases hattempt with ⟨d, fault, plan, generation, seed, rfl, rfl⟩ |
    ⟨d, fault, plan, generation, seed, rfl, rfl⟩ | ⟨d, id, patch, fault, plan, generation, seed, rfl, rfl⟩ |
    ⟨d, id, plan, generation, seed, rfl, rfl⟩ | ⟨d, plan, seed, expected, rfl, rfl⟩
  · exact ⟨trivial, fun a ha => by cases ha⟩
  all_goals exact ⟨trivial, Ready.done _⟩

/-- A publication in some direction leaves every call as ready as it was. -/
theorem ready_later {policy' : Direction → PublishedDatagramPolicy}
    (hlater : ∀ d, policy' d = policy d ∨ (policy' d).generation = (policy d).generation + 1)
    (hbased : task.Based policy) (hready : task.Ready policy) : task.Based policy' ∧ task.Ready policy' := by
  constructor
  · cases task with
    | addChecking d fault plan generation seed =>
      obtain ⟨hnew, hle, hplan⟩ := hbased
      rcases hlater d with heq | hnext
      · exact ⟨hnew, heq ▸ hle, heq ▸ hplan⟩
      · exact ⟨hnew, by omega, fun heq => by omega⟩
    | _ => trivial
  · intro a ha
    rcases hlater a.direction with heq | hnext
    · rw [heq]
      exact hready a ha
    · exact (hready a ha).later hnext

end DatagramTask

/-! ## All calls -/

namespace DatagramControl

open Function (update)

variable {first : Direction → PublishedDatagramPolicy} {s : DatagramControl} {i : Nat}

/-- The log is a chain that ends in the policies in force, and every call fits
the publications it has made and the policies it will publish to. -/
structure Ordered (first : Direction → PublishedDatagramPolicy) (s : DatagramControl) : Prop where
  chained : Chained first s.log
  latest : ∀ d, s.policy d = latest first s.log d
  callers : ∀ p ∈ s.log, p.caller < s.calls.length
  phase : ∀ (i : Nat) (call : DatagramCall), s.calls[i]? = some call → call.task.Phase call.op (s.editsBy i)
  ready : ∀ (i : Nat) (call : DatagramCall), s.calls[i]? = some call →
    call.task.Based s.policy ∧ call.task.Ready s.policy

theorem Ordered.start (name : String) (first : Direction → PublishedDatagramPolicy) :
    Ordered first (start name first) where
  chained := trivial
  latest _ := rfl
  callers p hp := absurd hp List.not_mem_nil
  phase i call hcall := by cases hcall
  ready i call hcall := by cases hcall

/-- A caller that is still to come has published nothing. -/
theorem Ordered.editsBy_length (h : Ordered first s) : s.editsBy s.calls.length = [] := by
  have hnone : s.log.filter (·.caller = s.calls.length) = [] := by
    rw [List.filter_eq_nil_iff]
    intro p hp
    have := h.callers p hp
    simp only [decide_eq_true_eq]
    omega
  rw [editsBy, hnone, List.map_nil]

theorem Ordered.call (h : Ordered first s) (op : DatagramFaultOp) : Ordered first (s.step (.call op)) where
  chained := h.chained
  latest := h.latest
  callers p hp := by
    have := h.callers p hp
    simp only [step, List.length_append, List.length_singleton]
    omega
  phase j call hcall := by
    simp only [step, List.getElem?_append] at hcall
    split at hcall
    · exact h.phase j call hcall
    · next hge =>
      have hj : j = s.calls.length := by
        by_contra hne
        rw [List.getElem?_eq_none (by simp only [List.length_singleton]; omega)] at hcall
        cases hcall
      subst hj
      simp only [Nat.sub_self, List.getElem?_cons_zero, Option.some.injEq] at hcall
      subst hcall
      show op.begin.Phase op (s.editsBy s.calls.length)
      rw [h.editsBy_length]
      exact op.begin_phase
  ready j call hcall := by
    simp only [step, List.getElem?_append] at hcall
    split at hcall
    · exact h.ready j call hcall
    · have hmem := List.mem_singleton.1 (List.mem_of_getElem? hcall)
      subst hmem
      exact DatagramTask.begin_ready op

/-- A call goes on, with the publications as they are. -/
theorem Ordered.goto (h : Ordered first s) {call : DatagramCall} (hcall : s.calls[i]? = some call) {task : DatagramTask}
    (hphase : task.Phase call.op (s.editsBy i)) (hready : task.Based s.policy ∧ task.Ready s.policy) :
    Ordered first (s.goto i task) where
  chained := h.chained
  latest := h.latest
  callers p hp := by
    rw [goto_length]
    exact h.callers p hp
  phase j other hother := by
    rw [goto_call hcall] at hother
    split at hother
    · next hj =>
      cases hother
      rw [hj]
      exact hphase
    · exact h.phase j other hother
  ready j other hother := by
    rw [goto_call hcall] at hother
    split at hother
    · cases hother
      exact hready
    · exact h.ready j other hother

theorem withPublication_policy (s : DatagramControl) (i : Nat) {a : DatagramAttempt} {policy : PublishedDatagramPolicy}
    (hpublishes : s.Publishes a policy) (d : Direction) :
    (s.withPublication i a policy).policy d = s.policy d ∨
      ((s.withPublication i a policy).policy d).generation = (s.policy d).generation + 1 := by
  by_cases hd : d = a.direction
  · subst hd
    refine .inr ?_
    simp only [withPublication, Function.update_self]
    exact hpublishes.generation
  · refine .inl ?_
    simp only [withPublication, Function.update_of_ne hd]

theorem editsBy_withPublication (s : DatagramControl) (i j : Nat) (a : DatagramAttempt)
    (policy : PublishedDatagramPolicy) :
    (s.withPublication i a policy).editsBy j =
      if i = j then (a.direction, a.edit) :: s.editsBy j else s.editsBy j := by
  by_cases hij : i = j
  · simp [editsBy, withPublication, hij]
  · simp [editsBy, withPublication, hij]

/-- A call publishes and goes on. -/
theorem Ordered.publish (h : Ordered first s) {call : DatagramCall} (hcall : s.calls[i]? = some call)
    {a : DatagramAttempt} (hattempt : call.task.attempt = some a) {policy : PublishedDatagramPolicy}
    (hpublishes : s.Publishes a policy) : Ordered first ((s.withPublication i a policy).goto i call.task.published) where
  chained := by
    refine ⟨?_, ?_, h.chained⟩
    · rw [← h.latest]
      exact hpublishes.generation
    · rw [← h.latest, hpublishes.plan]
      exact ((h.ready i call hcall).2 a hattempt).applies hpublishes.expected
  latest d := by
    by_cases hd : d = a.direction
    · subst hd
      simp only [goto_policy, goto_log, withPublication, DatagramControl.latest, if_pos, Function.update_self]
    · simp only [goto_policy, goto_log, withPublication, DatagramControl.latest, Function.update_of_ne hd,
        if_neg (Ne.symm hd)]
      exact h.latest d
  callers p hp := by
    rw [goto_length]
    rcases List.mem_cons.1 hp with rfl | hp
    · exact (List.getElem?_eq_some_iff.1 hcall).1
    · exact h.callers p hp
  phase j other hother := by
    rw [goto_call (s := s.withPublication i a policy) hcall] at hother
    show other.task.Phase other.op ((s.withPublication i a policy).editsBy j)
    rw [editsBy_withPublication]
    split at hother
    · next hj =>
      cases hother
      rw [if_pos hj.symm, hj]
      exact (h.phase i call hcall).published hattempt
    · next hj =>
      rw [if_neg (Ne.symm hj)]
      exact h.phase j other hother
  ready j other hother := by
    rw [goto_call (s := s.withPublication i a policy) hcall] at hother
    split at hother
    · cases hother
      exact DatagramTask.published_ready hattempt
    · obtain ⟨hbased, hready⟩ := h.ready j other hother
      exact DatagramTask.ready_later (withPublication_policy s i hpublishes) hbased hready

theorem Ordered.step (h : Ordered first s) (event : DatagramEvent) : Ordered first (s.step event) := by
  cases event with
  | call op => exact h.call op
  | proceed i =>
    cases hcall : s.calls[i]? with
    | none =>
      rw [step_proceed_none hcall]
      exact h
    | some call =>
      rw [step_proceed hcall]
      rcases proceed_cases s i call.task with ⟨hnone, hnext⟩ | ⟨a, hattempt, ⟨e, -, hnext⟩ | ⟨policy, hpublishes, hnext⟩⟩
      · rw [hnext]
        obtain ⟨hbased, hready⟩ := h.ready i call hcall
        exact h.goto hcall ((h.phase i call hcall).read hnone _ _) (DatagramTask.read_ready hbased hready _)
      · rw [hnext]
        exact h.goto hcall ((h.phase i call hcall).refused hattempt e) (DatagramTask.refused_ready hattempt e)
      · rw [hnext]
        exact h.publish hcall hattempt hpublishes

/-- The state after the events, from a proxy with no calls. -/
def reached (name : String) (first : Direction → PublishedDatagramPolicy) (events : List DatagramEvent) :
    DatagramControl :=
  run DatagramControl.step (DatagramControl.start name first) events

theorem run_ordered (name : String) (first : Direction → PublishedDatagramPolicy) (events : List DatagramEvent) :
    Ordered first (reached name first events) :=
  run_inv (Ordered first) (fun _ event h => h.step event) (Ordered.start name first) events

/-- In every run, each direction's publications are a chain: the generations
increase by one, and each plan is its edit of the plan just before, which the
policies in force end. A call that succeeds has published its edit and nothing
else; one that fails has published nothing, except an addition that finds its id
in the other direction after it published. -/
theorem edits_kept (name : String) (first : Direction → PublishedDatagramPolicy) (events : List DatagramEvent) :
    Chained first (reached name first events).log ∧
    (∀ d, (reached name first events).policy d =
      latest first (reached name first events).log d) ∧
    ∀ (i : Nat) (op : DatagramFaultOp) (result : Except ControlError DatagramReply),
      (reached name first events).calls[i]? = some ⟨op, .done result⟩ →
      op.Settled result ((reached name first events).editsBy i) := by
  have h := run_ordered name first events
  exact ⟨h.chained, h.latest, fun i op result hcall => h.phase i ⟨op, .done result⟩ hcall⟩

theorem empty_valid : DatagramPlan.empty.validate = .ok () := rfl
theorem drops_nonempty : "drops" ≠ "" := by decide
theorem drops_short : "drops".utf8ByteSize ≤ 128 := by decide

/-- The policies of a proxy as it is created. -/
def created : Direction → PublishedDatagramPolicy := fun _ => ⟨1, .empty, 0, one_le_u64Max, empty_valid⟩

/-- Every datagram is lost. -/
def drops : DatagramFaultSpec := ⟨⟨"drops", drops_nonempty, drops_short⟩, .one, .loss⟩

theorem edits_kept_added :
    (reached "dns" created (.call (.add .upstream drops) :: List.replicate 4 (.proceed 0))).editsBy 0 = [(.upstream, .add drops)] := by
  have h := (edits_kept "dns" created (.call (.add .upstream drops) :: List.replicate 4 (.proceed 0))).2.2 0
    (.add .upstream drops) (.ok (.added .upstream drops)) rfl
  exact h.2

/-- Two calls add a fault of one id, one in each direction, section by section in turn. -/
def crossing : List DatagramEvent :=
  .call (.add .upstream drops) :: .call (.add .downstream drops) ::
    (List.replicate 6 [.proceed 0, .proceed 1]).flatten

/-- Both answer that they conflict, and both have published their fault. -/
theorem conflict_after_publication :
    (reached "dns" created crossing).calls =
      [⟨.add .upstream drops,
          .done (.error (.conflict "datagram fault id must be unique across directions for path lookup"))⟩,
        ⟨.add .downstream drops,
          .done (.error (.conflict "datagram fault id must be unique across directions for path lookup"))⟩] ∧
    (reached "dns" created crossing).editsBy 0 =
      [(.upstream, .remove "drops"), (.upstream, .add drops)] ∧
    (reached "dns" created crossing).editsBy 1 =
      [(.downstream, .remove "drops"), (.downstream, .add drops)] :=
  ⟨rfl, rfl, rfl⟩

end DatagramControl

end Eggchaos
