import Eggchaos.StreamLoss
import Mathlib.Data.List.MinMax
/-!
# What compilation sets up

The state a fresh engine starts with, in terms of the plan and of which faults
are active on the connection: nothing decided yet by stream loss, the smallest
active byte limit, a buffer within the default one, and a blackhole exactly if
one is active.
-/

namespace Eggchaos
open Lib

namespace DirectionEngine

theorem newWithArcPlan_ok {plan : FaultPlan} {ident : Identity} {handle : TerminationHandle} {c₀ clock : Clock}
    {engine : DirectionEngine} (h : newWithArcPlan plan ident handle c₀ = (.ok engine, clock)) :
    plan.validate = .ok () ∧ engine = compile plan ident handle c₀.now ∧ clock = c₀.tick := by
  unfold newWithArcPlan at h
  split at h
  · cases h
  · next hv =>
    simp only [Prod.mk.injEq, Except.ok.injEq] at h
    exact ⟨hv, h.1.symm, h.2.symm⟩

theorem newWithArcPlan_valid {plan : FaultPlan} (h : plan.validate = .ok ()) (ident : Identity)
    (handle : TerminationHandle) (c : Clock) :
    newWithArcPlan plan ident handle c = (.ok (compile plan ident handle c.now), c.tick) := by
  simp only [newWithArcPlan, h]

/-! ## Stream loss -/

/-- The loss state a fault starts with. -/
def Identity.lossState (ident : Identity) (fault : FaultSpec) : Option StreamLossConnState :=
  match fault.kind with
  | .streamLoss _ => if ident.active fault then some ⟨ident.lossRng fault, none, false⟩ else none
  | _ => none

theorem compileFault_streamLoss (ident : Identity) (now : Nat) (acc : Compiled) (fault : FaultSpec) :
    (compileFault ident now acc fault).streamLoss = acc.streamLoss ++ [ident.lossState fault] := by
  unfold compileFault Identity.lossState Identity.active
  cases fault.kind <;> by_cases h : (ident.activation fault).1 <;> simp [h, compileKind] <;> split <;> rfl

theorem compile_streamLoss (ident : Identity) (now : Nat) (acc : Compiled) (faults : List FaultSpec) :
    (faults.foldl (compileFault ident now) acc).streamLoss = acc.streamLoss ++ faults.map ident.lossState := by
  induction faults generalizing acc with
  | nil => simp
  | cons fault faults ih => simp [ih, compileFault_streamLoss]

theorem compile_lossAt (plan : FaultPlan) (ident : Identity) (handle : TerminationHandle) (now : Nat) :
    LossAt ident 0 (compile plan ident handle now) := by
  refine ⟨?_, Nat.zero_le _, Nat.zero_le _⟩
  simp only [compile, compile_streamLoss, List.nil_append]
  rw [List.forall₂_map_right_iff, List.forall₂_same]
  intro fault _
  unfold FaultLossAt Identity.lossState
  cases fault.kind <;> simp only
  split
  · exact ⟨_, rfl, rfl, rfl⟩
  · rfl

/-! ## The limit -/

/-- The limit a fault sets, if it is an active byte limit. -/
def Identity.limit (ident : Identity) (fault : FaultSpec) : Option (Nat × FaultId) :=
  match fault.kind with
  | .limitData c => if ident.active fault then some (c.bytes.get, fault.id) else none
  | _ => none

/-- The limits of the active faults, in plan order. -/
def Identity.limits (ident : Identity) (plan : FaultPlan) : List (Nat × FaultId) := plan.faults.filterMap ident.limit

theorem compileFault_remainingLimit (ident : Identity) (now : Nat) (acc : Compiled) (fault : FaultSpec) :
    (compileFault ident now acc fault).remainingLimit =
      (ident.limit fault).elim acc.remainingLimit (List.argAux (·.1 < ·.1) acc.remainingLimit) := by
  unfold compileFault Identity.limit Identity.active
  by_cases hact : (ident.activation fault).1
  · simp only [hact, if_true, compileKind]
    cases fault.kind with
    | limitData c =>
      simp only [combineLimit, Option.elim, List.argAux]
      cases acc.remainingLimit <;> rfl
    | _ => rfl
  · simp only [hact, Bool.false_eq_true, if_false]
    cases fault.kind <;> rfl

/-- The compiled limit is the smallest active one, the first of equals. -/
theorem compile_remainingLimit (plan : FaultPlan) (ident : Identity) (handle : TerminationHandle) (now : Nat) :
    (compile plan ident handle now).remainingLimit = (ident.limits plan).argmin (·.1) := by
  have hfold : ∀ (faults : List FaultSpec) (acc : Compiled),
      (faults.foldl (compileFault ident now) acc).remainingLimit =
        (faults.filterMap ident.limit).foldl (List.argAux (·.1 < ·.1)) acc.remainingLimit := by
    intro faults
    induction faults with
    | nil => exact fun acc => rfl
    | cons fault faults ih =>
      intro acc
      rw [List.foldl_cons, ih, compileFault_remainingLimit]
      cases h : ident.limit fault with
      | none => rw [List.filterMap_cons_none h]; rfl
      | some p => rw [List.filterMap_cons_some h]; rfl
  exact hfold plan.faults {}

theorem limit_bounds {ident : Identity} {plan : FaultPlan} {p : Nat × FaultId} (h : p ∈ ident.limits plan) :
    0 < p.1 ∧ p.1 ≤ u64Max := by
  obtain ⟨fault, -, hf⟩ := List.mem_filterMap.1 h
  unfold Identity.limit at hf
  split at hf
  · next c _ =>
    split at hf
    · cases hf
      exact ⟨c.bytes.pos, c.bytes.le_max⟩
    · cases hf
  · cases hf

/-! ## The buffer -/

theorem compileFault_maxBuffer (ident : Identity) (now : Nat) (acc : Compiled) (fault : FaultSpec) :
    (compileFault ident now acc fault).maxBuffer ≤ acc.maxBuffer := by
  unfold compileFault
  simp only
  split
  · unfold compileKind
    split
    · exact Nat.min_le_left _ _
    all_goals exact le_rfl
  · exact le_rfl

/-- The buffer is at most the default one. -/
theorem compile_maxBuffer (plan : FaultPlan) (ident : Identity) (handle : TerminationHandle) (now : Nat) :
    (compile plan ident handle now).maxBuffer ≤ 64 * 1024 := by
  have hfold : ∀ (faults : List FaultSpec) (acc : Compiled),
      (faults.foldl (compileFault ident now) acc).maxBuffer ≤ acc.maxBuffer := by
    intro faults
    induction faults with
    | nil => exact fun acc => le_rfl
    | cons fault faults ih => exact fun acc => (ih _).trans (compileFault_maxBuffer ident now acc fault)
  have hle : (plan.faults.foldl (compileFault ident now) {}).maxBuffer ≤ 64 * 1024 := hfold plan.faults {}
  simp only [compile]
  omega

/-! ## The blackhole -/

/-- Whether the fault is an active blackhole. -/
def Identity.swallows (ident : Identity) (fault : FaultSpec) : Bool :=
  ident.active fault && fault.kind matches .blackhole _

theorem combineBlackhole_isSome (now : Nat) (existing : Option BlackholeState) (id : FaultId) (c : BlackholeConfig) :
    (combineBlackhole now existing id c).isSome := by
  unfold combineBlackhole
  simp only
  split
  · rfl
  · rfl
  · split <;> rfl
  · rfl

theorem compileFault_blackhole (ident : Identity) (now : Nat) (acc : Compiled) (fault : FaultSpec) :
    (compileFault ident now acc fault).blackhole.isSome = (acc.blackhole.isSome || ident.swallows fault) := by
  unfold compileFault Identity.swallows Identity.active
  by_cases hact : (ident.activation fault).1
  · simp only [hact, if_true, compileKind]
    cases fault.kind <;> simp [combineBlackhole_isSome]
  · simp [hact]

/-- The engine has a blackhole exactly if one of the plan is active. -/
theorem compile_blackhole (plan : FaultPlan) (ident : Identity) (handle : TerminationHandle) (now : Nat) :
    (compile plan ident handle now).blackhole.isSome = plan.faults.any ident.swallows := by
  have hfold : ∀ (faults : List FaultSpec) (acc : Compiled),
      (faults.foldl (compileFault ident now) acc).blackhole.isSome =
        (acc.blackhole.isSome || faults.any ident.swallows) := by
    intro faults
    induction faults with
    | nil => simp
    | cons fault faults ih =>
      intro acc
      rw [List.foldl_cons, ih, compileFault_blackhole, List.any_cons, Bool.or_assoc]
  exact hfold plan.faults {}

theorem compile_unswallowed {plan : FaultPlan} {ident : Identity}
    (hno : ∀ fault ∈ plan.faults, ident.swallows fault = false) (handle : TerminationHandle) (now : Nat) :
    (compile plan ident handle now).blackhole = none := by
  have hsome := compile_blackhole plan ident handle now
  rw [List.any_eq_false.2 (by simpa using hno)] at hsome
  exact Option.not_isSome_iff_eq_none.1 (Bool.eq_false_iff.1 hsome)

end DirectionEngine

end Eggchaos
