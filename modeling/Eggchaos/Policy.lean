import Eggchaos.Engine
/-!
# Published policies

`policy.rs`: a plan, its generation and its seed namespace are published
together, and a reader takes all three with one load. A published plan has
passed validation, and the snapshot carries that.
-/

namespace Eggchaos
open Lib

/-- One immutable published snapshot; the generation is a `u64`. -/
structure PublishedPolicy where
  generation : Nat
  plan : FaultPlan
  seedNamespace : UInt64
  fits : generation ≤ u64Max
  valid : plan.validate = .ok ()

/-- `LivePolicy`: the snapshot its readers load. -/
structure LivePolicy where
  current : PublishedPolicy

/-- `PolicyConflict`. -/
structure PolicyConflict where
  expected : Nat
  found : Nat
deriving DecidableEq, Repr

inductive PublishError where
  | invalid (e : ValidationError)
  | conflict (c : PolicyConflict)
deriving DecidableEq, Repr

namespace LivePolicy

/-- `LivePolicy::new`, at generation one; the source panics on an invalid plan. -/
def new (plan : FaultPlan) (seedNamespace : UInt64) (valid : plan.validate = .ok ()) : LivePolicy :=
  ⟨1, plan, seedNamespace, one_le_u64Max, valid⟩

def snapshot (p : LivePolicy) : PublishedPolicy := p.current

/-- One undisturbed turn of the publication loop: the next generation, unless
the counter is used up. -/
def swap (p : LivePolicy) (plan : FaultPlan) (seedNamespace : UInt64) (valid : plan.validate = .ok ()) :
    Except ValidationError PublishedPolicy × LivePolicy :=
  if p.current.generation = u64Max then (.error .generationOverflow, p)
  else
    let next : PublishedPolicy := ⟨satAdd p.current.generation 1, plan, seedNamespace, Nat.min_le_right _ _, valid⟩
    (.ok next, ⟨next⟩)

/-- `LivePolicy::publish`. -/
def publish (p : LivePolicy) (plan : FaultPlan) (seedNamespace : UInt64) :
    Except ValidationError PublishedPolicy × LivePolicy :=
  match h : plan.validate with
  | .error e => (.error e, p)
  | .ok () => p.swap plan seedNamespace h

/-- `LivePolicy::publish_expected`. -/
def publishExpected (p : LivePolicy) (plan : FaultPlan) (seedNamespace : UInt64) (expected : Nat) :
    Except PublishError PublishedPolicy × LivePolicy :=
  match h : plan.validate with
  | .error e => (.error (.invalid e), p)
  | .ok () =>
    if p.current.generation ≠ expected then (.error (.conflict ⟨expected, p.current.generation⟩), p)
    else
      match p.swap plan seedNamespace h with
      | (.error e, p) => (.error (.invalid e), p)
      | (.ok next, p) => (.ok next, p)

/-- The published snapshot, if its generation is not the observed one. -/
def newer (policy : Option LivePolicy) (observed : Nat) : Option PublishedPolicy :=
  match policy with
  | none => none
  | some policy => if policy.snapshot.generation = observed then none else some policy.snapshot

theorem publish_of_valid {p : LivePolicy} {plan : FaultPlan} (valid : plan.validate = .ok ()) (seedNamespace : UInt64) :
    p.publish plan seedNamespace = p.swap plan seedNamespace valid := by
  unfold publish
  split
  · next hv => rw [valid] at hv; cases hv
  · rfl

/-- A publication replaces the snapshot by one of the next generation, or fails
and changes nothing. -/
theorem publish_spec (p : LivePolicy) (plan : FaultPlan) (seedNamespace : UInt64) :
    (∃ e, p.publish plan seedNamespace = (.error e, p)) ∨
      ∃ next, p.publish plan seedNamespace = (.ok next, ⟨next⟩) ∧ next.plan = plan ∧
        next.generation = p.current.generation + 1 := by
  unfold publish
  split
  · next e _ => exact .inl ⟨e, rfl⟩
  · next h =>
    unfold swap
    split
    · exact .inl ⟨_, rfl⟩
    · next hgen =>
      have hfits := p.current.fits
      exact .inr ⟨_, rfl, rfl, clampU64_of_le (by omega)⟩

end LivePolicy

end Eggchaos
