import Eggchaos.ControlLemmas
/-!
# Updates of a definition

A field keeps the value an operation set until a later operation sets it, and
both mirrors agree with the live policies, unless `update_proxy` writes back a
clone that is older than one of the fields it does not patch, `set_enabled`
returns early on a proxy that is marked otherwise, or `publish_plans` gets only
its upstream half through. Every other write changes the fields its operation
sets and nothing else, so this is the exact condition (`updates_kept_iff`).
-/

namespace Eggchaos
open Lib

/-! ## What is synced -/

/-- Every field has the value it was last set to, and the mirrors are the live
plans. -/
structure ManagedProxy.Synced (entry : ManagedProxy) : Prop where
  fields : entry.spec.fields = entry.asked
  mirrors : ∀ direction, entry.spec.mirror direction = (entry.spec.policy direction).snapshot.plan

/-- Every stored proxy is synced. -/
def Registry.Synced (r : Registry) : Prop := ∀ name entry, r.get name = some entry → entry.Synced

namespace Registry

variable {r : Registry}

theorem Synced.modify_iff (h : r.Synced) (name : String) (f : ManagedProxy → ManagedProxy) :
    (r.modify name f).Synced ↔ ∀ entry, r.get name = some entry → (f entry).Synced := by
  constructor
  · intro hm entry hget
    exact hm name (f entry) (by rw [get_modify, if_pos rfl, hget]; rfl)
  · intro hf name' entry' hget
    rw [get_modify] at hget
    split at hget
    · next hname =>
      subst hname
      obtain ⟨entry, hentry, rfl⟩ := Option.map_eq_some_iff.1 hget
      exact hf entry hentry
    · exact h name' entry' hget

/-- A change that keeps entries synced. -/
theorem Synced.modify (h : r.Synced) (name : String) {f : ManagedProxy → ManagedProxy}
    (hf : ∀ entry, entry.Synced → (f entry).Synced) : (r.modify name f).Synced :=
  (h.modify_iff name f).2 fun entry hget => hf entry (h name entry hget)

theorem Synced.insert (h : r.Synced) (name : String) {entry : ManagedProxy} (he : entry.Synced) :
    (r.insert name entry).Synced := by
  intro name' entry' hget
  rw [get_insert] at hget
  cases hr : r.get name' with
  | some found =>
    rw [hr] at hget
    cases hget
    exact h name' _ hr
  | none =>
    rw [hr] at hget
    by_cases hname : name = name'
    · simp only [if_pos hname, Option.none_or, Option.some.injEq] at hget
      exact hget ▸ he
    · simp [hname] at hget

theorem Synced.remove (h : r.Synced) (name : String) : (r.remove name).Synced := by
  intro name' entry' hget
  rw [get_remove] at hget
  split at hget
  · cases hget
  · exact h name' entry' hget

theorem Synced.map (h : r.Synced) {f : ManagedProxy → ManagedProxy} (hf : ∀ entry, entry.Synced → (f entry).Synced) :
    Registry.Synced (r.map fun p => (p.1, f p.2)) := by
  intro name entry' hget
  rw [get_map] at hget
  obtain ⟨entry, hentry, rfl⟩ := Option.map_eq_some_iff.1 hget
  exact hf entry (h name entry hentry)

end Registry

/-! ## Publications -/

/-- A policy change keeps a spec in step: the plans it answers are in the mirror
and in the policy, everything else is as it was. -/
structure Refreshes (spec : ProxySpec) (out : Published) : Prop where
  fields : out.2.fields = spec.fields.setPlans (match out.1 with
    | .ok plans => plans
    | .error _ => [])
  mirrors : (∀ direction, spec.mirror direction = (spec.policy direction).snapshot.plan) →
    ∀ direction, out.2.mirror direction = (out.2.policy direction).snapshot.plan

namespace ProxySpec

variable (spec : ProxySpec)

theorem refused (e : ControlError) : Refreshes spec (.error e, spec) := ⟨rfl, fun h => h⟩

theorem withPolicy_self (direction : Direction) : spec.withPolicy direction (spec.policy direction) = spec := by
  cases direction <;> rfl

/-- Publish one direction and mirror it. -/
theorem published_refreshes (direction : Direction) (next : PublishedPolicy) :
    Refreshes spec (.ok [(direction, next.plan)], (spec.withPolicy direction ⟨next⟩).withMirror direction next.plan) := by
  constructor
  · cases direction <;> rfl
  · intro h direction'
    cases direction with
    | upstream =>
      cases direction' with
      | upstream => rfl
      | downstream => exact h .downstream
    | downstream =>
      cases direction' with
      | upstream => exact h .upstream
      | downstream => rfl

theorem publishDirection_refreshes (direction : Direction) (plan : FaultPlan) (seedNamespace : UInt64) :
    Refreshes spec (spec.publishDirection direction plan seedNamespace) := by
  unfold publishDirection
  rcases (spec.policy direction).publish_spec plan seedNamespace with ⟨e, he⟩ | ⟨next, hnext, -, -⟩
  · rw [he]
    simp only [withPolicy_self]
    exact spec.refused _
  · rw [hnext]
    exact spec.published_refreshes direction next

theorem addFault_refreshes (upsert : FaultUpsert) : Refreshes spec (spec.addFault upsert) := by
  unfold addFault
  split
  · exact spec.refused _
  · dsimp only
    split
    · exact spec.refused _
    · split
      · exact spec.refused _
      · exact spec.publishDirection_refreshes _ _ _

theorem updateFault_refreshes (id : String) (patch : FaultPatch) : Refreshes spec (spec.updateFault id patch) := by
  unfold updateFault
  split
  · exact spec.refused _
  · split
    · exact spec.refused _
    · dsimp only
      split
      · exact spec.refused _
      · split
        · exact spec.refused _
        · split
          · exact spec.refused _
          · exact spec.publishDirection_refreshes _ _ _

theorem removeFault_refreshes (id : String) : Refreshes spec (spec.removeFault id) := by
  unfold removeFault
  split
  · exact spec.refused _
  · dsimp only
    split
    · exact spec.refused _
    · exact spec.publishDirection_refreshes _ _ _

end ProxySpec

/-- A valid plan is published unless the generations are used up. -/
theorem LivePolicy.publish_valid (p : LivePolicy) {plan : FaultPlan} (h : plan.validate = .ok ()) (seedNamespace : UInt64) :
    (p.snapshot.generation = u64Max ∧ p.publish plan seedNamespace = (.error .generationOverflow, p)) ∨
      p.snapshot.generation ≠ u64Max ∧ ∃ next, p.publish plan seedNamespace = (.ok next, ⟨next⟩) ∧ next.plan = plan ∧
        next.seedNamespace = seedNamespace := by
  unfold LivePolicy.publish
  split
  · next e he =>
    rw [h] at he
    cases he
  · unfold LivePolicy.swap LivePolicy.snapshot
    split
    · next hgen => exact .inl ⟨hgen, rfl⟩
    · next hgen => exact .inr ⟨hgen, _, rfl, rfl, rfl⟩

/-- `publish_plans` does not get its upstream plan through only to fail at a
downstream policy whose generations are used up. -/
def ProxySpec.BothOrNeither (spec : ProxySpec) (upstream : FaultPlan) : Prop :=
  spec.downstreamPolicy.snapshot.generation = u64Max →
    spec.upstreamPolicy.snapshot.generation = u64Max ∨ upstream = spec.upstreamPolicy.snapshot.plan

namespace ProxySpec

variable (spec : ProxySpec)

theorem publishDirectionExpected_refreshes (direction : Direction) (plan : FaultPlan) (seedNamespace : UInt64)
    (expected : Nat) : Refreshes spec (spec.publishDirectionExpected direction plan seedNamespace expected) := by
  have hcases : (∃ e, (spec.policy direction).publishExpected plan seedNamespace expected =
        (.error e, spec.policy direction)) ∨
      ∃ next, (spec.policy direction).publishExpected plan seedNamespace expected = (.ok next, ⟨next⟩) := by
    unfold LivePolicy.publishExpected LivePolicy.swap
    split
    · exact .inl ⟨_, rfl⟩
    · split
      · exact .inl ⟨_, rfl⟩
      · by_cases hgen : (spec.policy direction).current.generation = u64Max
        · exact .inl ⟨_, by simp only [hgen, if_true]; rfl⟩
        · exact .inr ⟨_, by simp only [hgen, if_false]; rfl⟩
  unfold publishDirectionExpected
  rcases hcases with ⟨e, he⟩ | ⟨next, hnext⟩
  · rw [he]
    cases e with
    | invalid e =>
      simp only [withPolicy_self]
      exact spec.refused _
    | conflict c =>
      simp only [withPolicy_self]
      exact spec.refused _
  · rw [hnext]
    exact spec.published_refreshes direction next

/-- A `publish_plans` that gets both plans through, or none, or one that was
there already. -/
theorem publishPlans_refreshes {upstream downstream : FaultPlan} (hup : upstream.validate = .ok ())
    (hdown : downstream.validate = .ok ()) (h : spec.BothOrNeither upstream) :
    Refreshes spec (spec.publishPlans upstream downstream) := by
  unfold publishPlans
  simp only [hup, hdown]
  rcases spec.upstreamPolicy.publish_valid hup spec.upstreamPolicy.snapshot.seedNamespace with
    ⟨-, he⟩ | ⟨hgen, up, hok, hplan, -⟩
  · rw [he]
    exact spec.refused _
  · rw [hok]
    simp only [withPolicy]
    rcases spec.downstreamPolicy.publish_valid hdown spec.downstreamPolicy.snapshot.seedNamespace with
      ⟨hfull, he⟩ | ⟨-, down, hok', -⟩
    · rw [he]
      refine ⟨rfl, fun hm direction => ?_⟩
      rcases h hfull with hgen' | hsame
      · exact absurd hgen' hgen
      · cases direction with
        | upstream =>
          have := hm .upstream
          simp only [mirror, policy] at this ⊢
          rw [this, ← hsame, ← hplan]
          rfl
        | downstream => exact hm .downstream
    · rw [hok']
      refine ⟨rfl, fun _ direction => ?_⟩
      cases direction with
      | upstream => rfl
      | downstream => rfl

/-- Otherwise the upstream mirror is left behind. -/
theorem publishPlans_half {upstream downstream : FaultPlan} (hup : upstream.validate = .ok ())
    (hdown : downstream.validate = .ok ()) (h : ¬ spec.BothOrNeither upstream)
    (hm : spec.mirror .upstream = (spec.policy .upstream).snapshot.plan) :
    let out := spec.publishPlans upstream downstream
    out.2.mirror .upstream ≠ (out.2.policy .upstream).snapshot.plan := by
  simp only [BothOrNeither, Classical.not_imp, not_or] at h
  obtain ⟨hfull, hgen, hdiff⟩ := h
  unfold publishPlans
  simp only [hup, hdown]
  rcases spec.upstreamPolicy.publish_valid hup spec.upstreamPolicy.snapshot.seedNamespace with
    ⟨hgen', -⟩ | ⟨-, up, hok, hplan, -⟩
  · exact absurd hgen' hgen
  · rw [hok]
    simp only [withPolicy]
    rcases spec.downstreamPolicy.publish_valid hdown spec.downstreamPolicy.snapshot.seedNamespace with
      ⟨-, he⟩ | ⟨hgen', -⟩
    · rw [he]
      simp only [mirror, policy, LivePolicy.snapshot] at hm hdiff ⊢
      rw [hm, hplan]
      exact fun heq => hdiff heq.symm
    · exact absurd hfull hgen'

theorem clearDirection_refreshes (direction : Direction) :
    Refreshes spec (.ok (spec.clearDirection direction).1, (spec.clearDirection direction).2) := by
  unfold clearDirection
  rcases (spec.policy direction).publish_spec .empty (spec.policy direction).snapshot.seedNamespace with
    ⟨e, he⟩ | ⟨next, hnext, hplan, -⟩
  · rw [he]
    simp only [withPolicy_self]
    exact ⟨rfl, fun h => h⟩
  · rw [hnext]
    have := spec.published_refreshes direction next
    rwa [hplan] at this

end ProxySpec

/-! ## Entries -/

namespace ManagedProxy

variable {entry : ManagedProxy}

/-- A publication on a stored proxy, with the plans that it set. -/
theorem Synced.refreshes (h : entry.Synced) {spec : ProxySpec} {plans : List (Direction × FaultPlan)}
    (hr : Refreshes entry.spec (.ok plans, spec)) :
    ManagedProxy.Synced { entry with spec, asked := entry.asked.setPlans plans } := by
  refine ⟨?_, hr.mirrors h.mirrors⟩
  rw [← h.fields]
  exact hr.fields

theorem Synced.refused (h : entry.Synced) {spec : ProxySpec} {e : ControlError}
    (hr : Refreshes entry.spec (.error e, spec)) : ManagedProxy.Synced { entry with spec } := by
  refine ⟨?_, hr.mirrors h.mirrors⟩
  rw [← h.fields]
  exact hr.fields

/-- A new value of `enabled`. -/
theorem Synced.enabled (h : entry.Synced) (enabled : Bool) :
    ManagedProxy.Synced { entry with
      spec := { entry.spec with enabled }
      asked := { entry.asked with enabled } } := by
  refine ⟨?_, fun direction => ?_⟩
  · rw [← h.fields]
    rfl
  · have := h.mirrors direction
    cases direction <;> exact this

/-- `set_enabled` may return early where the proxy is marked as it asks. -/
theorem Synced.askedEnabled_iff (h : entry.Synced) (enabled : Bool) :
    (entry.askedEnabled enabled).Synced ↔ entry.spec.enabled = enabled := by
  constructor
  · intro hs
    exact congrArg SpecFields.enabled hs.fields
  · rintro rfl
    refine ⟨?_, h.mirrors⟩
    simp only [askedEnabled, ← h.fields]
    rfl

theorem Synced.cleared (h : entry.Synced) : entry.cleared.Synced := by
  have hup := (h.enabled true).refreshes (ProxySpec.clearDirection_refreshes { entry.spec with enabled := true } .upstream)
  exact hup.refreshes (ProxySpec.clearDirection_refreshes _ .downstream)

/-- Writing a clone back keeps an entry synced exactly when the clone has the
stored value of every field that the patch does not name. -/
theorem Synced.written_iff (h : entry.Synced) (patch : ProxyPatch) (spec : ProxySpec) :
    (entry.written patch spec).Synced ↔ spec.fields = entry.spec.fields.setPatch patch := by
  rw [h.fields]
  constructor
  · intro hs
    exact hs.fields
  · intro hf
    refine ⟨hf, fun direction => ?_⟩
    have hplan := h.mirrors direction
    rw [← h.fields] at hf
    cases direction with
    | upstream => exact (congrArg SpecFields.upstreamFaults hf).trans hplan
    | downstream => exact (congrArg SpecFields.downstreamFaults hf).trans hplan

end ManagedProxy

/-! ## Steps -/

namespace ControlState

variable {s : ControlState} {seed : UInt64}

/-- What a call needs of the spec it is about to register, and of the plans it
is about to publish. -/
def Ready : Task → Prop
  | .checking spec | .createBinding spec => spec.validate = .ok ()
  | .createSpawning spec _ | .inserting spec _ _ | .importing spec =>
    ∀ direction, spec.mirror direction = (spec.policy direction).snapshot.plan
  | .changing _ change => change.precheck = .ok ()
  | _ => True

theorem Ready.of_resumed {task : Task} (h : task.Resumed) : Ready task := by
  cases h <;> trivial

end ControlState

/-- A validated definition has valid plans. -/
theorem ProxySpec.validate_plans {spec : ProxySpec} (h : spec.validate = .ok ()) :
    spec.upstreamFaults.validate = .ok () ∧ spec.downstreamFaults.validate = .ok () := by
  unfold ProxySpec.validate at h
  split at h
  · cases h
  · split at h
    · cases h
    · cases hup : spec.upstreamFaults.validate with
      | error e =>
        rw [hup] at h
        cases h
      | ok _ =>
        cases hdown : spec.downstreamFaults.validate with
        | error e =>
          rw [hup, hdown] at h
          cases h
        | ok _ => exact ⟨rfl, rfl⟩

theorem ProxySpec.initPolicies_mirrors {spec : ProxySpec} (h : spec.validate = .ok ()) (seed : UInt64) :
    ∀ direction, (spec.initPolicies seed).mirror direction = ((spec.initPolicies seed).policy direction).snapshot.plan := by
  have hpolicy : ∀ (plan : FaultPlan) (ns : UInt64), plan.validate = .ok () → (policyOf plan ns).snapshot.plan = plan := by
    intro plan ns hvalid
    unfold policyOf
    split
    · rfl
    · next e he =>
      rw [hvalid] at he
      cases he
  obtain ⟨hup, hdown⟩ := ProxySpec.validate_plans h
  intro direction
  cases direction with
  | upstream => exact (hpolicy _ _ hup).symm
  | downstream => exact (hpolicy _ _ hdown).symm

namespace ControlState

variable {s : ControlState} {seed : UInt64}

theorem Proceeds.ready {task : Task} {out : ControlState × Task} (hp : Proceeds seed s task out) (h : Ready task) :
    Ready out.2 := by
  cases hp with
  | leaves _ _ ht | joined _ _ _ ht | foundRunning _ _ _ ht | foundStopped _ _ _ ht | stores _ _ ht | clears _ ht
  | writes _ _ ht | restores _ _ ht | inserts _ _ _ ht | imports _ _ ht | changes _ _ ht => exact .of_resumed ht
  | returned | waits | checks | createSpawns => exact h
  | createBound =>
    intro direction
    have := ProxySpec.initPolicies_mirrors h seed direction
    cases direction <;> exact this
  | enables | disables | rereads | bound | spawns | clones | clonesRestart | prebound | releases | drained | respawns
  | removes | abandonsStart | abandonsRestart | abandonsCreate => trivial

/-- A write keeps every update: a clone that is written back has the stored value
of every field that its patch does not name, a proxy that `set_enabled` leaves
alone is marked as it asks, and plans that are published together are not
published by half. -/
def Keeps (s : ControlState) : Task → Prop
  | .enabling name _ =>
    ∀ entry, s.proxies.get name = some entry → entry.running → entry.spec.enabled = true
  | .disabling name _ =>
    ∀ entry, s.proxies.get name = some entry → !entry.running → entry.spec.enabled = false
  | .writingBack name p spec | .restoring name p spec _ _ =>
    ∀ entry, s.proxies.get name = some entry → spec.fields = entry.spec.fields.setPatch p.patch
  | .changing name (.publishPlans upstream _) =>
    ∀ entry, s.proxies.get name = some entry → entry.spec.BothOrNeither upstream
  | _ => True

end ControlState

theorem PolicyChange.precheck_plans {upstream downstream : FaultPlan}
    (h : (PolicyChange.publishPlans upstream downstream).precheck = .ok ()) :
    upstream.validate = .ok () ∧ downstream.validate = .ok () := by
  simp only [PolicyChange.precheck] at h
  cases hup : upstream.validate with
  | error e =>
    rw [hup] at h
    cases h
  | ok _ =>
    cases hdown : downstream.validate with
    | error e =>
      rw [hup, hdown] at h
      cases h
    | ok _ => exact ⟨rfl, rfl⟩

/-- A fault operation other than `publish_plans` refreshes what it publishes. -/
theorem PolicyChange.apply_refreshes (change : PolicyChange) (spec : ProxySpec) (hpre : change.precheck = .ok ())
    (h : ∀ upstream downstream, change = .publishPlans upstream downstream → spec.BothOrNeither upstream) :
    Refreshes spec (change.apply spec) := by
  cases change with
  | addFault upsert => exact spec.addFault_refreshes upsert
  | updateFault id patch => exact spec.updateFault_refreshes id patch
  | removeFault id => exact spec.removeFault_refreshes id
  | publishPlans upstream downstream =>
    obtain ⟨hup, hdown⟩ := PolicyChange.precheck_plans hpre
    exact spec.publishPlans_refreshes hup hdown (h upstream downstream rfl)
  | publishDirectionExpected direction plan seedNamespace expected =>
    exact spec.publishDirectionExpected_refreshes direction plan seedNamespace expected

/-- What a fault operation makes of a stored proxy is synced, except for plans
that are published by half. -/
theorem ManagedProxy.Synced.changed_iff {entry : ManagedProxy} (h : entry.Synced) {change : PolicyChange}
    (hpre : change.precheck = .ok ()) :
    (entry.changed change).Synced ↔
      ∀ upstream downstream, change = .publishPlans upstream downstream → entry.spec.BothOrNeither upstream := by
  constructor
  · rintro hs upstream downstream rfl
    by_contra hnot
    obtain ⟨hup, hdown⟩ := PolicyChange.precheck_plans hpre
    refine entry.spec.publishPlans_half hup hdown hnot (h.mirrors .upstream) ?_
    simp only [ManagedProxy.changed, PolicyChange.apply] at hs
    split at hs
    · next heq =>
      rw [heq]
      exact hs.mirrors .upstream
    · next heq =>
      rw [heq]
      exact hs.mirrors .upstream
  · intro hboth
    have hr := change.apply_refreshes entry.spec hpre hboth
    unfold ManagedProxy.changed
    split
    · next heq =>
      rw [heq] at hr
      exact h.refused hr
    · next heq =>
      rw [heq] at hr
      exact h.refreshes hr

namespace ControlState

variable {s : ControlState} {seed : UInt64}

theorem writeBack_synced_iff (h : s.proxies.Synced) (name : String) (patch : ProxyPatch) (spec : ProxySpec) :
    (s.writeBack name patch spec).proxies.Synced ↔
      ∀ entry, s.proxies.get name = some entry → spec.fields = entry.spec.fields.setPatch patch := by
  rw [writeBack_proxies, h.modify_iff]
  exact forall₂_congr fun entry hget => (h name entry hget).written_iff patch spec

/-- A restart writes its clone back in the same way. -/
theorem restore_synced_iff (h : s.proxies.Synced) (name : String) (patch : ProxyPatch) (spec : ProxySpec)
    (bound : SocketAddr) (k : Nat) :
    (s.restore name patch spec bound k).proxies.Synced ↔
      ∀ entry, s.proxies.get name = some entry → spec.fields = entry.spec.fields.setPatch patch := by
  rw [restore_proxies, h.modify_iff]
  refine forall₂_congr fun entry hget => ?_
  rw [← (h name entry hget).written_iff patch spec]
  exact ⟨fun hs => ⟨hs.fields, hs.mirrors⟩, fun hs => ⟨hs.fields, hs.mirrors⟩⟩

theorem applyChange_synced_iff (h : s.proxies.Synced) (name : String) {change : PolicyChange}
    (hpre : change.precheck = .ok ()) :
    (s.applyChange name change).proxies.Synced ↔ ∀ entry, s.proxies.get name = some entry →
      ∀ upstream downstream, change = .publishPlans upstream downstream → entry.spec.BothOrNeither upstream := by
  rw [applyChange_proxies, h.modify_iff]
  exact forall₂_congr fun entry hget => (h name entry hget).changed_iff hpre

theorem askEnabled_synced_iff (h : s.proxies.Synced) {name : String} {entry : ManagedProxy}
    (hget : s.proxies.get name = some entry) (enabled : Bool) :
    (s.askEnabled name enabled).proxies.Synced ↔ entry.spec.enabled = enabled := by
  rw [askEnabled_proxies, h.modify_iff, ← (h name entry hget).askedEnabled_iff enabled, hget]
  simp only [Option.some.injEq, forall_eq']

theorem keeps_of_leaves {task : Task} (h : task.Leaves s.proxies) : s.Keeps task := by
  have absent : ∀ {name : String} {P : ManagedProxy → Prop}, s.proxies.get name = none →
      ∀ entry, s.proxies.get name = some entry → P entry := by
    intro name P hnone entry hget
    rw [hnone] at hget
    cases hget
  cases task with
  | enabling name patch | disabling name patch | writingBack name p spec => exact absent h
  | changing name change =>
    cases change with
    | publishPlans upstream downstream => exact absent h
    | addFault _ | updateFault _ _ | removeFault _ | publishDirectionExpected _ _ _ _ => trivial
  | restoring name p spec bound k => exact h.elim
  | _ => trivial

theorem keeps_of_awaits {task : Task} {supervisor : String × Option Nat} (h : task.awaits = some supervisor) :
    s.Keeps task := by
  cases task with
  | enabling | disabling | writingBack | restoring | changing => cases h
  | _ => trivial

/-- A step of a call leaves the registry synced exactly when its write keeps
every update. -/
theorem Proceeds.synced_iff {task : Task} {out : ControlState × Task} (hp : Proceeds seed s task out)
    (h : s.proxies.Synced) (hready : Ready task) : out.1.proxies.Synced ↔ s.Keeps task := by
  cases hp with
  | leaves hleaves hs =>
    rw [hs.proxies]
    exact iff_of_true h (keeps_of_leaves hleaves)
  | joined hawaits _ hs =>
    rw [hs.proxies]
    exact iff_of_true h (keeps_of_awaits hawaits)
  | waits hawaits => exact iff_of_true h (keeps_of_awaits hawaits)
  | foundRunning hget hrun hs =>
    rw [hs.proxies, askEnabled_synced_iff h hget]
    simp [Keeps, hget, hrun]
  | foundStopped hget hrun hs =>
    rw [hs.proxies, askEnabled_synced_iff h hget]
    simp [Keeps, hget, hrun]
  | enables hget hrun => exact iff_of_true h (by simp [Keeps, hget, hrun])
  | disables hget hrun =>
    rw [disable_proxies]
    refine iff_of_true (h.modify _ fun entry he => ?_) (by simp [Keeps, hget, hrun])
    exact ⟨(he.enabled false).fields, (he.enabled false).mirrors⟩
  | stores _ hs =>
    rw [hs.proxies, store_proxies]
    exact iff_true_intro (h.modify _ fun entry he => ⟨(he.enabled true).fields, (he.enabled true).mirrors⟩)
  | clears hs =>
    rw [hs.proxies]
    exact iff_true_intro (h.map fun entry he => he.cleared)
  | writes _ hs =>
    rw [hs.proxies]
    exact writeBack_synced_iff h _ _ _
  | releases =>
    rw [release_proxies]
    exact iff_true_intro (h.modify _ fun entry he => ⟨he.fields, he.mirrors⟩)
  | restores _ hs =>
    rw [hs.proxies]
    exact restore_synced_iff h _ _ _ _ _
  | abandonsRestart hnone => exact iff_of_true h (by simp [Keeps, hnone])
  | inserts _ _ hs | imports _ hs =>
    rw [hs.proxies]
    exact iff_true_intro (h.insert _ ⟨rfl, hready⟩)
  | removes => exact iff_true_intro (h.remove _)
  | @changes name change entry out _ hs =>
    rw [hs.proxies, applyChange_synced_iff h name hready]
    cases change <;> simp [Keeps]
  | returned | rereads | bound | spawns | clones | clonesRestart | prebound | drained | respawns | checks | createBound
  | createSpawns | abandonsStart | abandonsCreate => exact iff_true_intro h

theorem start_ready (s : ControlState) (request : ControlRequest) : Ready (s.start seed request).2 := by
  unfold start
  cases request with
  | create spec =>
    dsimp only
    split
    · trivial
    · next hvalid => exact hvalid
  | importDefinition spec =>
    dsimp only
    split
    · trivial
    · next hvalid => exact ProxySpec.initPolicies_mirrors hvalid seed
  | startAll => trivial
  | setEnabled name enabled => cases enabled <;> trivial
  | update name patch =>
    dsimp only
    split
    · trivial
    · trivial
    · exact .of_resumed (patchFields_resumed _ _ _)
  | delete name => trivial
  | reset => trivial
  | change name change =>
    dsimp only
    split
    · trivial
    · next hpre => exact hpre

/-- Every call has checked what it is about to write. -/
def AllReady (s : ControlState) : Prop := ∀ call ∈ s.calls, Ready call.task

/-- The step keeps every update. -/
def StepKeeps (s : ControlState) : Op → Prop
  | .advance i _ => ∀ call, s.calls[i]? = some call → s.Keeps call.task
  | .begin _ | .supervisor _ _ => True

theorem step_allReady (s : ControlState) (o : Op) (h : s.AllReady) : (s.step seed o).AllReady := by
  cases o with
  | begin request =>
    simp only [step, AllReady, (s.start_regenerated seed request).calls]
    intro call hcall
    rcases List.mem_append.1 hcall with hold | hnew
    · exact h call hold
    · rw [List.mem_singleton.1 hnew]
      exact s.start_ready request
  | advance i bind =>
    simp only [step]
    split
    · exact h
    · next call hcall =>
      simp only [AllReady, s.proceed_calls]
      intro call' hmem
      rcases List.mem_or_eq_of_mem_set hmem with hold | rfl
      · exact h call' hold
      · exact (s.proceed_cases seed call.task bind).ready (h call (List.mem_of_getElem? hcall))
  | supervisor k turn =>
    simp only [step]
    split <;> exact h

theorem step_synced_iff (s : ControlState) (o : Op) (h : s.proxies.Synced) (hready : s.AllReady) :
    (s.step seed o).proxies.Synced ↔ s.StepKeeps o := by
  cases o with
  | begin request =>
    simp only [step, (s.start_regenerated seed request).proxies]
    exact iff_of_true h trivial
  | advance i bind =>
    simp only [step, StepKeeps]
    split
    · next hnone => simpa [hnone] using h
    · next call hcall =>
      simp only [hcall, Option.some.injEq, forall_eq']
      exact (s.proceed_cases seed call.task bind).synced_iff h (hready call (List.mem_of_getElem? hcall))
  | supervisor k turn =>
    simp only [step, StepKeeps]
    split <;> exact iff_of_true h trivial

end ControlState

open ControlState in
/-- Whatever calls are made and however they interleave, every stored proxy is
synced in every state exactly when no write of the run drops an update. -/
theorem updates_kept_iff (seed : UInt64) (ops : List Op) :
    (∀ pre, pre <+: ops → (run (step seed) .empty pre).proxies.Synced) ↔ Along (step seed) StepKeeps .empty ops := by
  refine prefixes_iff_along (J := AllReady) step_allReady step_synced_iff ?_ ?_ ops
  · intro name entry hget
    cases hget
  · intro call hcall
    cases hcall

/-! ## A clone that is stale -/

def limitPatch : ProxyPatch where
  listen := none
  upstream := none
  enabled := none
  maxConnections := some (some 5)
  connectTimeoutMs := none

def slowUpsert : FaultUpsert where
  direction := .upstream
  id := "slow"
  probability := some 1
  kind := .slowClose ⟨5⟩

/-- `update_proxy` clones the definition, `add_fault` adds a fault and returns,
and the clone is written back. -/
def staleCloneOps : List ControlState.Op :=
  [.begin (.importDefinition plainSpec), .advance 0 (.error ""),
    .begin (.update "p" limitPatch), .advance 1 (.error ""),
    .begin (.change "p" (.addFault slowUpsert)), .advance 2 (.error ""),
    .advance 1 (.error "")]

open ControlState in
/-- Both calls return `Ok`; the fault runs in the policy and is gone from the
definition. -/
theorem stale_clone_drops_fault :
    let s := run (step 0) .empty staleCloneOps
    (s.calls.map fun call => match call.task with
      | .returned (.ok _) => true
      | _ => false) = [true, true, true] ∧
    (∃ entry, s.proxies.get "p" = some entry ∧ entry.spec.upstreamFaults.faults = [] ∧
      entry.spec.upstreamPolicy.snapshot.plan.faults.map (·.id.value) = ["slow"]) ∧
    ¬ s.proxies.Synced := by
  refine ⟨by decide, ⟨_, rfl, by decide, by decide⟩, ?_⟩
  intro hsynced
  have hmirror := (hsynced "p" _ rfl).mirrors .upstream
  exact absurd (congrArg (·.faults.length) hmirror) (by decide)

end Eggchaos
