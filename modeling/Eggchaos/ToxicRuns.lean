import Eggchaos.FieldUpdates
import Eggchaos.Toxics
import Eggchaos.Lib.Linear
import Mathlib.Data.List.Permutation
/-!
# Interleaved toxic calls

A toxic call has its effect in one native write. Where the write finds what the
call has read, it does what the whole call would do alone in its place
(`ToxicTask.proceed_effect`), so the successful calls linearize in the order of their
writes (`ToxicControl.toxics_linearizable`). The reads and the write are separate
sections, and an update that has come in between is lost
(`ToxicControl.toxics_not_linearizable`).
-/

namespace Eggchaos
open Lib

/-! ## Native writes -/

/-- One plan gets these faults; the other policy stays. -/
structure ProxySpec.Edits (spec : ProxySpec) (direction : Direction) (faults : List FaultSpec) (spec' : ProxySpec) : Prop where
  plan : (spec'.policy direction).snapshot.plan.faults = faults
  other : spec'.policy direction.opposite = spec.policy direction.opposite

namespace ProxySpec

variable (spec : ProxySpec)

theorem publishDirection_cases (direction : Direction) (plan : FaultPlan) (seedNamespace : UInt64) :
    (∃ e, spec.publishDirection direction plan seedNamespace = (.error e, spec)) ∨
      ∃ plans spec', spec.publishDirection direction plan seedNamespace = (.ok plans, spec') ∧
        spec.Edits direction plan.faults spec' := by
  unfold publishDirection
  rcases (spec.policy direction).publish_spec plan seedNamespace with ⟨e, he⟩ | ⟨next, hnext, hplan, -⟩
  · rw [he]
    exact .inl ⟨_, congrArg (Prod.mk _) (spec.withPolicy_self direction)⟩
  · rw [hnext]
    refine .inr ⟨_, _, rfl, ?_⟩
    rw [← hplan]
    cases direction <;> exact ⟨rfl, rfl⟩

theorem addFault_cases (upsert : FaultUpsert) :
    (∃ e, spec.addFault upsert = (.error e, spec)) ∨
      ∃ fault plans spec', upsert.build = .ok fault ∧
        (spec.policy upsert.direction).snapshot.plan.get fault.id.value = none ∧
        spec.addFault upsert = (.ok plans, spec') ∧
        spec.Edits upsert.direction ((spec.policy upsert.direction).snapshot.plan.faults ++ [fault]) spec' := by
  unfold addFault
  cases hbuild : upsert.build with
  | error e => exact .inl ⟨e, rfl⟩
  | ok fault =>
    dsimp only
    split
    · exact .inl ⟨_, rfl⟩
    · next hfree =>
      split
      · exact .inl ⟨_, rfl⟩
      · next next hnew =>
        rcases spec.publishDirection_cases upsert.direction next (spec.policy upsert.direction).snapshot.seedNamespace with
          herror | ⟨plans, spec', hpublished, hedits⟩
        · exact .inl herror
        · rw [(FaultPlan.new_eq_ok_iff.1 hnew).1] at hedits
          exact .inr ⟨fault, plans, spec', rfl, Option.not_isSome_iff_eq_none.1 hfree, hpublished, hedits⟩

theorem getFault_eq (id : String) :
    spec.getFault id = (spec.directionOf id).bind fun direction =>
      ((spec.policy direction).snapshot.plan.get id).map fun fault => (direction, fault) := by
  unfold getFault directionOf policy
  simp only [List.find?_cons, List.find?_nil]
  cases hup : spec.upstreamPolicy.snapshot.plan.get id with
  | some fault => simp [hup]
  | none =>
    cases hdown : spec.downstreamPolicy.snapshot.plan.get id with
    | some fault => simp [hdown]
    | none => simp

theorem getFault_get {id : String} {direction : Direction} {existing : FaultSpec}
    (h : spec.getFault id = some (direction, existing)) :
    (spec.policy direction).snapshot.plan.get id = some existing := by
  rw [getFault_eq] at h
  obtain ⟨d, -, hmap⟩ := Option.bind_eq_some_iff.1 h
  obtain ⟨fault, hfault, heq⟩ := Option.map_eq_some_iff.1 hmap
  cases heq
  exact hfault

theorem updateFault_cases (id : String) (patch : FaultPatch) :
    (∃ e, spec.updateFault id patch = (.error e, spec)) ∨
      ∃ direction existing fault plans spec', spec.getFault id = some (direction, existing) ∧
        patchFault existing patch = .ok fault ∧ spec.updateFault id patch = (.ok plans, spec') ∧
        spec.Edits direction
          ((spec.policy direction).snapshot.plan.faults.set
            ((spec.policy direction).snapshot.plan.faults.findIdx (·.id.value = id)) fault) spec' := by
  unfold updateFault
  split
  · exact .inl ⟨_, rfl⟩
  · rw [getFault_eq]
    cases hdirection : spec.directionOf id with
    | none => exact .inl ⟨_, rfl⟩
    | some direction =>
      dsimp only
      cases hget : (spec.policy direction).snapshot.plan.get id with
      | none => exact .inl ⟨_, rfl⟩
      | some existing =>
        dsimp only
        cases hpatch : patchFault existing patch with
        | error e => exact .inl ⟨_, rfl⟩
        | ok fault =>
          dsimp only
          split
          · exact .inl ⟨_, rfl⟩
          · next next hnew =>
            rcases spec.publishDirection_cases direction next (spec.policy direction).snapshot.seedNamespace with
              herror | ⟨plans, spec', hpublished, hedits⟩
            · exact .inl herror
            · rw [(FaultPlan.new_eq_ok_iff.1 hnew).1] at hedits
              exact .inr ⟨direction, existing, fault, plans, spec', by rw [Option.bind_some, hget]; rfl, hpatch,
                hpublished, hedits⟩

theorem removeFault_cases (id : String) :
    (∃ e, spec.removeFault id = (.error e, spec)) ∨
      ∃ direction plans spec', spec.removeFault id = (.ok plans, spec') ∧
        spec.Edits direction ((spec.policy direction).snapshot.plan.faults.filter (·.id.value ≠ id)) spec' := by
  unfold removeFault
  cases hdirection : spec.directionOf id with
  | none => exact .inl ⟨_, rfl⟩
  | some direction =>
    dsimp only
    split
    · exact .inl ⟨_, rfl⟩
    · rcases spec.publishDirection_cases direction ((spec.policy direction).snapshot.plan.withoutFault id)
        (spec.policy direction).snapshot.seedNamespace with herror | ⟨plans, spec', hpublished, hedits⟩
      · exact .inl herror
      · exact .inr ⟨direction, plans, spec', hpublished, hedits⟩

end ProxySpec

/-! ## Names -/

namespace ProxySpec

/-- The names of the toxics, those upstream first. -/
def toxicNames (spec : ProxySpec) : List FaultId :=
  (spec.upstreamPolicy.snapshot.plan.faults ++ spec.downstreamPolicy.snapshot.plan.faults).map (·.id)

/-- No two toxics of the proxy have one name, whatever their directions. -/
def NamesUnique (spec : ProxySpec) : Prop := spec.toxicNames.Nodup

instance NamesUnique.decidable (spec : ProxySpec) : Decidable spec.NamesUnique :=
  inferInstanceAs (Decidable spec.toxicNames.Nodup)

/-- The names of a direction. -/
def namesOf (spec : ProxySpec) (direction : Direction) : List FaultId :=
  (spec.policy direction).snapshot.plan.faults.map (·.id)

theorem namesUnique_iff (spec : ProxySpec) (direction : Direction) :
    spec.NamesUnique ↔ (spec.namesOf direction).Nodup ∧ (spec.namesOf direction.opposite).Nodup ∧
      List.Disjoint (spec.namesOf direction) (spec.namesOf direction.opposite) := by
  have hboth : spec.NamesUnique ↔ (spec.namesOf .upstream ++ spec.namesOf .downstream).Nodup := by
    rw [NamesUnique, toxicNames, List.map_append]
    rfl
  rw [hboth, List.nodup_append']
  cases direction with
  | upstream => exact Iff.rfl
  | downstream => exact ⟨fun h => ⟨h.2.1, h.1, List.disjoint_symm h.2.2⟩, fun h => ⟨h.2.1, h.1, List.disjoint_symm h.2.2⟩⟩

theorem get_isSome_iff {plan : FaultPlan} {id : FaultId} : (plan.get id.value).isSome ↔ id ∈ plan.faults.map (·.id) := by
  rw [FaultPlan.get, List.find?_isSome, List.mem_map]
  constructor
  · rintro ⟨fault, hmem, hid⟩
    refine ⟨fault, hmem, ?_⟩
    have hvalue := of_decide_eq_true hid
    cases hfault : fault.id
    cases id
    simp_all
  · rintro ⟨fault, hmem, rfl⟩
    exact ⟨fault, hmem, decide_eq_true rfl⟩

variable {spec spec' : ProxySpec} {direction : Direction} {faults : List FaultSpec}

theorem Edits.namesOf (h : spec.Edits direction faults spec') :
    spec'.namesOf direction = faults.map (·.id) ∧ spec'.namesOf direction.opposite = spec.namesOf direction.opposite := by
  unfold ProxySpec.namesOf
  rw [h.plan, h.other]
  exact ⟨rfl, rfl⟩

/-- Names that were there before stay unique. -/
theorem Edits.sublist (h : spec.Edits direction faults spec')
    (hsub : (faults.map (·.id)).Sublist (spec.namesOf direction)) (hunique : spec.NamesUnique) : spec'.NamesUnique := by
  obtain ⟨hself, hother⟩ := h.namesOf
  obtain ⟨hnodup, hnodup', hdisjoint⟩ := (spec.namesUnique_iff direction).1 hunique
  refine (spec'.namesUnique_iff direction).2 ?_
  rw [hself, hother]
  exact ⟨hnodup.sublist hsub, hnodup', fun id hid => hdisjoint (hsub.subset hid)⟩

/-- A name that neither direction has may be added. -/
theorem Edits.added {fault : FaultSpec}
    (h : spec.Edits direction ((spec.policy direction).snapshot.plan.faults ++ [fault]) spec')
    (hfree : (spec.policy direction).snapshot.plan.get fault.id.value = none)
    (hother : (spec.policy direction.opposite).snapshot.plan.get fault.id.value = none)
    (hunique : spec.NamesUnique) : spec'.NamesUnique := by
  obtain ⟨hself, hsame⟩ := h.namesOf
  obtain ⟨hnodup, hnodup', hdisjoint⟩ := (spec.namesUnique_iff direction).1 hunique
  have hnew : fault.id ∉ spec.namesOf direction := by
    intro hmem
    have hsome := get_isSome_iff.2 hmem
    rw [hfree] at hsome
    cases hsome
  have hnew' : fault.id ∉ spec.namesOf direction.opposite := by
    intro hmem
    have hsome := get_isSome_iff.2 hmem
    rw [hother] at hsome
    cases hsome
  refine (spec'.namesUnique_iff direction).2 ?_
  rw [hself, hsame, List.map_append]
  refine ⟨?_, hnodup', ?_⟩
  · exact List.nodup_append'.2 ⟨hnodup, List.nodup_singleton _, List.disjoint_singleton.2 hnew⟩
  · exact List.disjoint_append_left.2 ⟨hdisjoint, List.singleton_disjoint.2 hnew'⟩

theorem map_set_same {α β : Type} {l : List α} {i : Nat} {a b : α} (f : α → β) (h : l[i]? = some a) (hf : f b = f a) :
    (l.set i b).map f = l.map f := by
  obtain ⟨hlt, rfl⟩ := List.getElem?_eq_some_iff.1 h
  rw [List.map_set, hf, ← List.getElem_map f (h := by rwa [List.length_map])]
  exact List.set_getElem_self _

/-- A fault that keeps its name may be replaced. -/
theorem Edits.replaced {existing fault : FaultSpec} {id : String}
    (h : spec.Edits direction ((spec.policy direction).snapshot.plan.faults.set
      ((spec.policy direction).snapshot.plan.faults.findIdx (·.id.value = id)) fault) spec')
    (hget : (spec.policy direction).snapshot.plan.get id = some existing) (hid : fault.id = existing.id)
    (hunique : spec.NamesUnique) : spec'.NamesUnique := by
  refine h.sublist ?_ hunique
  have hsame : ((spec.policy direction).snapshot.plan.faults.set
      ((spec.policy direction).snapshot.plan.faults.findIdx (·.id.value = id)) fault).map (·.id) =
        spec.namesOf direction := by
    rw [FaultPlan.get, List.find?_eq_getElem?_findIdx] at hget
    exact map_set_same (·.id) hget hid
  rw [hsame]

end ProxySpec

/-! ## Translations that go back -/

/-- The strict profile builds no stream loss. -/
theorem kindFromAttrs_strict {kind : String} {attrs : ToxicAttributes} {c : StreamLossConfig} :
    kindFromAttrs kind attrs .strictV2_12 ≠ .ok (.streamLoss c) := by
  intro h
  unfold kindFromAttrs at h
  -- the seven types of v2.12 are other kinds
  iterate 7
    rcases ite_eq_iff.1 h with ⟨_, h⟩ | ⟨_, h⟩
    · cases h
  rcases ite_eq_iff.1 h with ⟨_, h⟩ | ⟨_, h⟩
  · rcases ite_eq_iff.1 h with ⟨_, h⟩ | ⟨haccepts, h⟩
    · cases h
    · exact absurd rfl haccepts
  · cases h

/-- A kind that the adapter has built has a toxic. -/
theorem attrsFromKind_of_kindFromAttrs {kind : String} {attrs : ToxicAttributes} {profile : CompatProfile} {k : FaultKind}
    (h : kindFromAttrs kind attrs profile = .ok k) : ∃ x, attrsFromKind k profile = .ok x := by
  cases k with
  | streamLoss c =>
    cases profile with
    | postV2_12_2026_09_25 => exact ⟨_, rfl⟩
    | strictV2_12 => exact absurd h kindFromAttrs_strict
  | latency c => exact ⟨_, rfl⟩
  | bandwidth c => exact ⟨_, rfl⟩
  | blackhole c => exact ⟨_, rfl⟩
  | limitData c => exact ⟨_, rfl⟩
  | slowClose c => exact ⟨_, rfl⟩
  | slice c => exact ⟨_, rfl⟩
  | disconnect c => exact ⟨_, rfl⟩

theorem faultToToxic_of_kindFromAttrs {kind : String} {attrs : ToxicAttributes} {profile : CompatProfile}
    (direction : Direction) (fault : FaultSpec) (h : kindFromAttrs kind attrs profile = .ok fault.kind) :
    ∃ object, faultToToxic direction fault profile = .ok object := by
  obtain ⟨x, hx⟩ := attrsFromKind_of_kindFromAttrs h
  unfold faultToToxic
  rw [hx]
  exact ⟨_, rfl⟩

theorem Toxic.resolve_kind {toxic : Toxic} {profile : CompatProfile} {direction : Direction} {kind : FaultKind} {name : String}
    (h : toxic.resolve profile = .ok (direction, kind, name)) :
    kindFromAttrs toxic.type toxic.attributes profile = .ok kind := by
  obtain ⟨d, -, h⟩ := except_bind_ok h
  obtain ⟨k, hkind, h⟩ := except_bind_ok h
  cases h
  exact hkind

theorem FaultId.value_of_new {value : String} {id : FaultId} (h : FaultId.new value = .ok id) : id.value = value := by
  unfold FaultId.new at h
  split at h
  · cases h
    rfl
  · cases h

/-- What an added toxic asks of the native layer. -/
theorem Toxic.upsert_ok {toxic : Toxic} {direction : Direction} {kind : FaultKind} {name : String} {upsert : FaultUpsert}
    (h : toxic.upsert direction kind name = .ok upsert) :
    upsert.direction = direction ∧ upsert.id = name ∧ upsert.kind = kind := by
  obtain ⟨id, hid, h⟩ := except_bind_ok h
  obtain ⟨probability, -, h⟩ := except_bind_ok h
  have hvalue : id.value = name := FaultId.value_of_new (except_mapError_ok hid)
  dsimp only at h
  split at h
  · cases h
  · cases h
  · cases h
    exact ⟨rfl, hvalue, rfl⟩

theorem FaultUpsert.build_ok {upsert : FaultUpsert} {fault : FaultSpec} (h : upsert.build = .ok fault) :
    fault.id.value = upsert.id ∧ fault.kind = upsert.kind := by
  unfold build at h
  split at h
  · cases h
  · next id hid =>
    split at h
    · cases h
    · cases h
      exact ⟨FaultId.value_of_new hid, rfl⟩

theorem ToxicUpdate.revise_kind {patch : ToxicUpdate} {existing : FaultSpec} {profile : CompatProfile} {change : FaultPatch}
    (h : patch.revise existing profile = .ok change) :
    ∃ name attrs kind, change.kind = some kind ∧ kindFromAttrs name attrs profile = .ok kind := by
  obtain ⟨x, -, h⟩ := except_bind_ok h
  obtain ⟨kind, hkind, h⟩ := except_bind_ok h
  obtain ⟨probability, -, h⟩ := except_bind_ok h
  cases h
  exact ⟨_, _, kind, rfl, hkind⟩

theorem patchFault_ok {existing fault : FaultSpec} {patch : FaultPatch} (h : ProxySpec.patchFault existing patch = .ok fault) :
    fault.id = existing.id ∧ fault.kind = patch.kind.getD existing.kind := by
  unfold ProxySpec.patchFault at h
  split at h
  · cases h
    exact ⟨rfl, rfl⟩
  · split at h
    · cases h
    · cases h
      exact ⟨rfl, rfl⟩

/-! ## Sections -/

/-- Where a call may stand. -/
inductive ToxicOp.Reaches (profile : CompatProfile) : ToxicOp → ToxicTask → Prop
  | viewing (toxic : Toxic) : Reaches profile (.add toxic) (.viewing toxic)
  | checking {toxic : Toxic} {direction : Direction} {kind : FaultKind} {name : String}
      (hresolve : toxic.resolve profile = .ok (direction, kind, name)) :
      Reaches profile (.add toxic) (.checking toxic direction kind name)
  | adding {toxic : Toxic} {direction : Direction} {kind : FaultKind} {name : String} {upsert : FaultUpsert}
      (hresolve : toxic.resolve profile = .ok (direction, kind, name))
      (hupsert : toxic.upsert direction kind name = .ok upsert) : Reaches profile (.add toxic) (.adding upsert)
  | reading (name : String) (patch : ToxicUpdate) : Reaches profile (.update name patch) (.reading name patch)
  | updating (name : String) {patch : ToxicUpdate} {existing : FaultSpec} {change : FaultPatch}
      (hrevise : patch.revise existing profile = .ok change)
      (hcheck : ∀ message, change.probability.map checkProbability ≠ some (.error (.invalid message))) :
      Reaches profile (.update name patch) (.updating name patch change)
  | updateMissing (name : String) (patch : ToxicUpdate) : Reaches profile (.update name patch) .missing
  | removing (name : String) : Reaches profile (.remove name) (.removing name)
  | removeMissing (name : String) : Reaches profile (.remove name) .missing
  | done (op : ToxicOp) (result : Except CompatError ToxicReply) : Reaches profile op (.done result)

theorem ToxicOp.reaches_begin (profile : CompatProfile) (op : ToxicOp) : op.Reaches profile op.begin := by
  cases op with
  | add toxic => exact .viewing toxic
  | update name patch => exact .reading name patch
  | remove name => exact .removing name

theorem ToxicOp.begin_not_succeeded (op : ToxicOp) : op.begin.succeeded = false := by
  cases op <;> rfl

theorem ToxicOp.reaches_of_succeeded {profile : CompatProfile} {op : ToxicOp} {task : ToxicTask}
    (h : task.succeeded = true) : op.Reaches profile task := by
  cases task with
  | done result => exact .done op result
  | _ => cases h

/-- The write finds what the call has read: no toxic of the name has come in the
other direction, or what the patch makes of the toxic is still the same. -/
def ToxicTask.Undisturbed (profile : CompatProfile) (proxy : Option ProxySpec) : ToxicTask → Prop
  | adding upsert => ∀ spec ∈ proxy, (spec.policy upsert.direction.opposite).snapshot.plan.get upsert.id = none
  | updating name patch change => ∀ found ∈ NativeProxy.getFault proxy name, patch.revise found.2 profile = .ok change
  | viewing _ | checking _ _ _ _ | reading _ _ | removing _ | missing | done _ => True

instance ToxicTask.Undisturbed.decidable (profile : CompatProfile) (proxy : Option ProxySpec) :
    DecidablePred (ToxicTask.Undisturbed profile proxy)
  | adding upsert =>
    inferInstanceAs (Decidable (∀ spec ∈ proxy, (spec.policy upsert.direction.opposite).snapshot.plan.get upsert.id = none))
  | updating name patch change =>
    inferInstanceAs (Decidable (∀ found ∈ NativeProxy.getFault proxy name, patch.revise found.2 profile = .ok change))
  | viewing _ | checking _ _ _ _ | reading _ _ | removing _ | missing | done _ => .isTrue trivial

/-- What a section does to the proxy: nothing, or what the whole call does alone. -/
structure ToxicTask.Effect (profile : CompatProfile) (name : String) (proxy : Option ProxySpec) (op : ToxicOp)
    (task : ToxicTask) (next : Option ProxySpec × ToxicTask) : Prop where
  before : task.succeeded = false
  after : next.2.succeeded = true
  alone : op.alone profile name proxy = next
  unique : (∀ spec ∈ proxy, spec.NamesUnique) → ∀ spec' ∈ next.1, spec'.NamesUnique

structure ToxicTask.Quiet (profile : CompatProfile) (proxy : Option ProxySpec) (op : ToxicOp)
    (task : ToxicTask) (next : Option ProxySpec × ToxicTask) : Prop where
  proxy : next.1 = proxy
  reaches : op.Reaches profile next.2
  result : next.2 = task ∨ task.succeeded = false ∧ next.2.succeeded = false

namespace ToxicTask

variable {profile : CompatProfile} {name : String} {proxy : Option ProxySpec}

theorem getFault_none {spec : ProxySpec} {id : String} {direction : Direction}
    (hself : (spec.policy direction).snapshot.plan.get id = none)
    (hother : (spec.policy direction.opposite).snapshot.plan.get id = none) : spec.getFault id = none := by
  unfold ProxySpec.getFault
  cases direction with
  | upstream =>
    change spec.upstreamPolicy.snapshot.plan.get id = none at hself
    change spec.downstreamPolicy.snapshot.plan.get id = none at hother
    rw [hself, hother]
    rfl
  | downstream =>
    change spec.upstreamPolicy.snapshot.plan.get id = none at hother
    change spec.downstreamPolicy.snapshot.plan.get id = none at hself
    rw [hself, hother]
    rfl

theorem proceed_adding (upsert : FaultUpsert) : (adding upsert).proceed profile name proxy =
    ((NativeProxy.addFault name proxy upsert).1, done (addedToxic profile (NativeProxy.addFault name proxy upsert).2)) := rfl

theorem proceed_updating (id : String) (patch : ToxicUpdate) (change : FaultPatch) :
    (updating id patch change).proceed profile name proxy =
      ((NativeProxy.updateFault name proxy id change).1,
        done (updatedToxic profile (NativeProxy.updateFault name proxy id change).2)) := rfl

/-- A call alone, by its sections. -/
theorem alone_sections {op : ToxicOp} {first second third : Option ProxySpec × ToxicTask}
    (hfirst : op.begin.proceed profile name proxy = first) (hsecond : first.2.proceed profile name first.1 = second)
    (hthird : second.2.proceed profile name second.1 = third) : op.alone profile name proxy = third := by
  subst hfirst hsecond
  exact hthird

theorem adding_effect {toxic : Toxic} {direction : Direction} {kind : FaultKind} {id : String} {upsert : FaultUpsert}
    (hresolve : toxic.resolve profile = .ok (direction, kind, id))
    (hupsert : toxic.upsert direction kind id = .ok upsert) (hundisturbed : (adding upsert).Undisturbed profile proxy) :
    Quiet profile proxy (.add toxic) (adding upsert) ((adding upsert).proceed profile name proxy) ∨
      Effect profile name proxy (.add toxic) (adding upsert) ((adding upsert).proceed profile name proxy) := by
  obtain ⟨hdirection, hid, hkind⟩ := Toxic.upsert_ok hupsert
  cases proxy with
  | none => exact .inl ⟨rfl, .done _ _, .inr ⟨rfl, rfl⟩⟩
  | some spec =>
    rcases spec.addFault_cases upsert with ⟨e, herror⟩ | ⟨fault, plans, spec', hbuild, hfree, hwritten, hedits⟩
    · rw [proceed_adding, NativeProxy.addFault, herror]
      refine .inl ⟨rfl, .done _ _, .inr ⟨rfl, ?_⟩⟩
      cases e <;> rfl
    · obtain ⟨hfaultId, hfaultKind⟩ := FaultUpsert.build_ok hbuild
      have hother := hundisturbed spec rfl
      obtain ⟨object, hobject⟩ := faultToToxic_of_kindFromAttrs upsert.direction fault
        (by rw [hfaultKind, hkind]; exact Toxic.resolve_kind hresolve)
      have hnext : (adding upsert).proceed profile name (some spec) = (some spec', done (.ok (.toxic object))) := by
        rw [proceed_adding, NativeProxy.addFault, hwritten, hbuild]
        simp only [Except.bind, Except.map, addedToxic, hobject]
        rfl
      have hlook : spec.getFault id = none := by
        rw [← hid]
        exact getFault_none (by rw [← hfaultId]; exact hfree) hother
      have hview : (viewing toxic).proceed profile name (some spec) = (some spec, checking toxic direction kind id) := by
        simp only [proceed, hresolve]
      have hcheck : (checking toxic direction kind id).proceed profile name (some spec) = (some spec, adding upsert) := by
        simp only [proceed, NativeProxy.getFault, Option.bind_some, hlook, hupsert]
      refine .inr ⟨rfl, by rw [hnext]; rfl, alone_sections hview hcheck rfl, ?_⟩
      · intro hunique spec'' hspec''
        rw [hnext] at hspec''
        cases hspec''
        exact hedits.added hfree (by rw [hfaultId]; exact hother) (hunique spec rfl)

theorem updating_effect (id : String) {patch : ToxicUpdate} {existing : FaultSpec} {change : FaultPatch}
    (hrevise : patch.revise existing profile = .ok change)
    (hcheck : ∀ message, change.probability.map checkProbability ≠ some (.error (.invalid message)))
    (hundisturbed : (updating id patch change).Undisturbed profile proxy) :
    Quiet profile proxy (.update id patch) (updating id patch change)
        ((updating id patch change).proceed profile name proxy) ∨
      Effect profile name proxy (.update id patch) (updating id patch change)
        ((updating id patch change).proceed profile name proxy) := by
  cases proxy with
  | none => exact .inl ⟨rfl, .done _ _, .inr ⟨rfl, rfl⟩⟩
  | some spec =>
    rcases spec.updateFault_cases id change with
      ⟨e, herror⟩ | ⟨direction, found, fault, plans, spec', hfound, hpatch, hwritten, hedits⟩
    · rw [proceed_updating, NativeProxy.updateFault, herror]
      refine .inl ⟨rfl, .done _ _, .inr ⟨rfl, ?_⟩⟩
      cases e <;> rfl
    · obtain ⟨hfaultId, hfaultKind⟩ := patchFault_ok hpatch
      obtain ⟨kindName, attrs, kind, hkind, hfrom⟩ := ToxicUpdate.revise_kind hrevise
      obtain ⟨object, hobject⟩ := faultToToxic_of_kindFromAttrs direction fault
        (by rw [hfaultKind, hkind]; exact hfrom)
      have hnext : (updating id patch change).proceed profile name (some spec) =
          (some spec', done (.ok (.toxic object))) := by
        rw [proceed_updating, NativeProxy.updateFault, hwritten]
        simp only [hfound, hpatch, Except.bind, Except.map, updatedToxic, hobject]
        rfl
      have hagain : patch.revise found profile = .ok change := hundisturbed (direction, found) hfound
      have hread : (reading id patch).proceed profile name (some spec) = (some spec, updating id patch change) := by
        simp only [proceed, NativeProxy.getFault, Option.bind_some, hfound, hagain]
      refine .inr ⟨rfl, by rw [hnext]; rfl, ?_, ?_⟩
      · rw [hnext]
        exact alone_sections hread hnext rfl
      · intro hunique spec'' hspec''
        rw [hnext] at hspec''
        cases hspec''
        exact hedits.replaced (spec.getFault_get hfound) hfaultId (hunique spec rfl)

theorem removing_effect (id : String) :
    Quiet profile proxy (.remove id) (removing id) ((removing id).proceed profile name proxy) ∨
      Effect profile name proxy (.remove id) (removing id) ((removing id).proceed profile name proxy) := by
  cases proxy with
  | none => exact .inl ⟨rfl, .removeMissing id, .inr ⟨rfl, rfl⟩⟩
  | some spec =>
    rcases spec.removeFault_cases id with ⟨e, herror⟩ | ⟨direction, plans, spec', hwritten, hedits⟩
    · refine .inl ?_
      simp only [proceed, NativeProxy.removeFault, herror, Except.map]
      cases e with
      | notFound text => exact ⟨rfl, .removeMissing id, .inr ⟨rfl, rfl⟩⟩
      | conflict text => exact ⟨rfl, .done _ _, .inr ⟨rfl, rfl⟩⟩
      | invalid text => exact ⟨rfl, .done _ _, .inr ⟨rfl, rfl⟩⟩
      | bindFailed proxy reason => exact ⟨rfl, .done _ _, .inr ⟨rfl, rfl⟩⟩
      | restartFailed proxy reason => exact ⟨rfl, .done _ _, .inr ⟨rfl, rfl⟩⟩
    · have hnext : (removing id).proceed profile name (some spec) = (some spec', done (.ok .removed)) := by
        simp only [proceed, NativeProxy.removeFault, hwritten, Except.map]
      rw [hnext]
      refine .inr ⟨rfl, rfl, ?_, ?_⟩
      · exact alone_sections hnext rfl rfl
      · intro hunique spec'' hspec''
        cases hspec''
        refine hedits.sublist ?_ (hunique spec rfl)
        exact List.filter_sublist.map _

theorem missing_quiet (op : ToxicOp) :
    Quiet profile proxy op missing (missing.proceed profile name proxy) := ⟨rfl, .done _ _, .inr ⟨rfl, rfl⟩⟩

/-- A section does nothing to the proxy, or it does what the whole call does alone. -/
theorem proceed_effect (name : String) {op : ToxicOp} {task : ToxicTask} (hreaches : op.Reaches profile task)
    (hundisturbed : task.Undisturbed profile proxy) :
    Quiet profile proxy op task (task.proceed profile name proxy) ∨
      Effect profile name proxy op task (task.proceed profile name proxy) := by
  cases hreaches with
  | viewing toxic =>
    left
    simp only [proceed]
    split
    · exact ⟨rfl, .done _ _, .inr ⟨rfl, rfl⟩⟩
    · split
      · exact ⟨rfl, .done _ _, .inr ⟨rfl, rfl⟩⟩
      · next direction kind id hresolve => exact ⟨rfl, .checking hresolve, .inr ⟨rfl, rfl⟩⟩
  | checking hresolve =>
    left
    simp only [proceed]
    split
    · exact ⟨rfl, .done _ _, .inr ⟨rfl, rfl⟩⟩
    · split
      · exact ⟨rfl, .done _ _, .inr ⟨rfl, rfl⟩⟩
      · next upsert hupsert => exact ⟨rfl, .adding hresolve hupsert, .inr ⟨rfl, rfl⟩⟩
  | adding hresolve hupsert => exact adding_effect hresolve hupsert hundisturbed
  | reading id patch =>
    left
    simp only [proceed]
    split
    · exact ⟨rfl, .updateMissing id patch, .inr ⟨rfl, rfl⟩⟩
    · split
      · exact ⟨rfl, .done _ _, .inr ⟨rfl, rfl⟩⟩
      · next change hrevise =>
        split
        · exact ⟨rfl, .done _ _, .inr ⟨rfl, rfl⟩⟩
        · next hcheck => exact ⟨rfl, .updating id hrevise fun message heq => hcheck message heq, .inr ⟨rfl, rfl⟩⟩
  | updating id hrevise hcheck => exact updating_effect id hrevise hcheck hundisturbed
  | updateMissing id patch => exact .inl (missing_quiet _)
  | removing id => exact removing_effect id
  | removeMissing id => exact .inl (missing_quiet _)
  | done op result => exact .inl ⟨rfl, .done _ _, .inl rfl⟩

end ToxicTask

/-! ## Runs -/

namespace ToxicControl

variable {profile : CompatProfile} {name : String} {first : Option ProxySpec} {s : ToxicControl}

/-- Call `i` returned `Ok`. -/
def finished (s : ToxicControl) (i : Nat) (op : ToxicOp) (task : ToxicTask) : Prop :=
  s.calls[i]? = some ⟨op, task⟩ ∧ task.succeeded = true

/-- The write of the event, if it makes one, finds what its call has read. -/
def Undisturbed (profile : CompatProfile) (s : ToxicControl) : ToxicEvent → Prop
  | .call _ => True
  | .proceed i => ∀ call ∈ s.calls[i]?, call.task.Undisturbed profile s.proxy

instance Undisturbed.decidable (profile : CompatProfile) (s : ToxicControl) : DecidablePred (s.Undisturbed profile)
  | .call _ => .isTrue trivial
  | .proceed i => inferInstanceAs (Decidable (∀ call ∈ s.calls[i]?, call.task.Undisturbed profile s.proxy))

/-- The successful calls are explained by an order of them. -/
structure Explained (profile : CompatProfile) (name : String) (first : Option ProxySpec) (s : ToxicControl) : Prop where
  reaches : ∀ call ∈ s.calls, call.op.Reaches profile call.task
  history : ∃ history, Linearizes (ToxicOp.alone profile name) id s.finished first s.proxy history
  unique : (∀ spec ∈ first, spec.NamesUnique) → ∀ spec ∈ s.proxy, spec.NamesUnique

theorem Explained.start (first : Option ProxySpec) : Explained profile name first ⟨first, []⟩ where
  reaches call hcall := absurd hcall List.not_mem_nil
  history := ⟨[], .nil fun i op task hfin => by cases hfin.1⟩
  unique := id

theorem Explained.call (h : Explained profile name first s) (op : ToxicOp) :
    Explained profile name first (s.step profile name (.call op)) := by
  obtain ⟨history, hhistory⟩ := h.history
  refine ⟨?_, ⟨history, hhistory.congr ?_⟩, h.unique⟩
  · intro call hcall
    rcases List.mem_append.1 hcall with hcall | hcall
    · exact h.reaches call hcall
    · rw [List.mem_singleton.1 hcall]
      exact op.reaches_begin profile
  · intro i op' task
    simp only [finished, step, List.getElem?_append]
    split
    · exact Iff.rfl
    · next hlt =>
      rw [List.getElem?_eq_none (Nat.le_of_not_lt hlt)]
      constructor
      · rintro ⟨hlast, hsucceeded⟩
        have hcall := List.mem_singleton.1 (List.mem_of_getElem? hlast)
        cases hcall
        rw [op.begin_not_succeeded] at hsucceeded
        cases hsucceeded
      · rintro ⟨hnone, -⟩
        cases hnone

theorem Explained.proceed (h : Explained profile name first s) {i : Nat} {call : ToxicCall} (hcall : s.calls[i]? = some call)
    (hundisturbed : call.task.Undisturbed profile s.proxy) :
    Explained profile name first (s.step profile name (.proceed i)) := by
  obtain ⟨history, hhistory⟩ := h.history
  have hlt : i < s.calls.length := (List.getElem?_eq_some_iff.1 hcall).1
  have hreaches := h.reaches call (List.mem_of_getElem? hcall)
  have hat : ∀ j, (s.step profile name (.proceed i)).calls[j]? =
      if i = j then some { call with task := (call.task.proceed profile name s.proxy).2 } else s.calls[j]? := by
    intro j
    simp only [step, hcall, List.getElem?_set, if_pos hlt]
  have hproxy : (s.step profile name (.proceed i)).proxy = (call.task.proceed profile name s.proxy).1 := by
    simp only [step, hcall]
  rcases ToxicTask.proceed_effect name hreaches hundisturbed with hquiet | heffect
  · refine ⟨?_, ⟨history, ?_⟩, ?_⟩
    · intro call' hcall'
      obtain ⟨j, hj⟩ := List.mem_iff_getElem?.1 hcall'
      rw [hat] at hj
      split at hj
      · cases hj
        exact hquiet.reaches
      · exact h.reaches call' (List.mem_of_getElem? hj)
    · rw [hproxy, hquiet.proxy]
      refine hhistory.congr fun j op task => ?_
      unfold finished
      rw [hat]
      split
      · next hij =>
        subst hij
        rw [hcall]
        rcases hquiet.result with hsame | ⟨hbefore, hafter⟩
        · rw [hsame]
        · constructor
          · rintro ⟨heq, hsucceeded⟩
            cases heq
            rw [hafter] at hsucceeded
            cases hsucceeded
          · rintro ⟨heq, hsucceeded⟩
            cases heq
            rw [hbefore] at hsucceeded
            cases hsucceeded
      · exact Iff.rfl
    · rw [hproxy, hquiet.proxy]
      exact h.unique
  · refine ⟨?_, ⟨history ++ [(i, call.op, (call.task.proceed profile name s.proxy).2)], ?_⟩, ?_⟩
    · intro call' hcall'
      obtain ⟨j, hj⟩ := List.mem_iff_getElem?.1 hcall'
      rw [hat] at hj
      split at hj
      · cases hj
        exact ToxicOp.reaches_of_succeeded heffect.after
      · exact h.reaches call' (List.mem_of_getElem? hj)
    · rw [hproxy, ← heffect.alone]
      refine hhistory.extend ?_ ?_
      · rintro op task ⟨heq, hsucceeded⟩
        rw [hcall] at heq
        cases heq
        rw [heffect.before] at hsucceeded
        cases hsucceeded
      · intro j op task
        rw [heffect.alone]
        unfold finished
        rw [hat]
        split
        · next hij =>
          subst hij
          rw [hcall]
          constructor
          · rintro ⟨heq, -⟩
            cases heq
            exact .inr rfl
          · rintro (⟨heq, hsucceeded⟩ | heq)
            · cases heq
              rw [heffect.before] at hsucceeded
              cases hsucceeded
            · cases heq
              exact ⟨rfl, heffect.after⟩
        · next hij =>
          constructor
          · exact .inl
          · rintro (hfin | heq)
            · exact hfin
            · cases heq
              exact absurd rfl hij
    · rw [hproxy]
      exact fun hunique => heffect.unique (h.unique hunique)

theorem Explained.step (h : Explained profile name first s) {event : ToxicEvent} (hundisturbed : s.Undisturbed profile event) :
    Explained profile name first (s.step profile name event) := by
  cases event with
  | call op => exact h.call op
  | proceed i =>
    cases hcall : s.calls[i]? with
    | none =>
      have hsame : s.step profile name (.proceed i) = s := by simp only [ToxicControl.step, hcall]
      rw [hsame]
      exact h
    | some call => exact h.proceed hcall (hundisturbed call hcall)

/-- The plans of the proxy, upstream and downstream. -/
def plans (proxy : Option ProxySpec) : Option (FaultPlan × FaultPlan) :=
  proxy.map fun spec => (spec.upstreamPolicy.snapshot.plan, spec.downstreamPolicy.snapshot.plan)

/-- The state after the events, from a proxy on which no call is in progress. -/
def after (profile : CompatProfile) (name : String) (first : Option ProxySpec) (events : List ToxicEvent) : ToxicControl :=
  run (ToxicControl.step profile name) ⟨first, []⟩ events

/-- In every run whose writes find what their calls have read, the successful calls
have some order in which they, one after the other, give the same results and the
same plans, and unique names stay unique. -/
theorem toxics_linearizable (profile : CompatProfile) (name : String) (first : Option ProxySpec) (events : List ToxicEvent)
    (hundisturbed : Along (ToxicControl.step profile name) (Undisturbed profile) ⟨first, []⟩ events) :
    (∃ history, Linearizes (ToxicOp.alone profile name) plans (after profile name first events).finished
      first (after profile name first events).proxy history) ∧
    ((∀ spec ∈ first, spec.NamesUnique) → ∀ spec ∈ (after profile name first events).proxy, spec.NamesUnique) := by
  have h : Explained profile name first (after profile name first events) :=
    run_inv_along (Explained profile name first) (fun s event hs hok => hs.step hok) (.start first) hundisturbed
  obtain ⟨history, hhistory⟩ := h.history
  exact ⟨⟨history, hhistory.map plans⟩, h.unique⟩

/-- A latency toxic, `latency_upstream` unless it has another name. -/
def latencyToxic (stream : String) (name : Option String) : Toxic where
  name := name
  type := "latency"
  stream := stream
  toxicity := .finite 1
  attributes := { latency := some 100 }

def setLatency : ToxicUpdate := ⟨none, some { latency := some 5 }⟩
def setJitter : ToxicUpdate := ⟨none, some { jitter := some 7 }⟩

/-- A proxy with one toxic. -/
def delayed : Option ProxySpec := ((ToxicOp.add (latencyToxic "upstream" none)).alone .strictV2_12 "p" (some plainSpec)).1

/-- Two updates of the toxic, one after the other. -/
def updatesApart : List ToxicEvent :=
  [.call (.update "latency_upstream" setLatency), .call (.update "latency_upstream" setJitter),
    .proceed 0, .proceed 0, .proceed 1, .proceed 1]

theorem toxics_linearizable_apart :
    (∃ history, Linearizes (ToxicOp.alone .strictV2_12 "p") plans (after .strictV2_12 "p" delayed updatesApart).finished
      delayed (after .strictV2_12 "p" delayed updatesApart).proxy history) ∧
    ((after .strictV2_12 "p" delayed updatesApart).proxy.bind (·.getFault "latency_upstream")).map (·.2.kind) =
      some (.latency ⟨5000000, 7000000, toxicBuffer⟩) :=
  ⟨(toxics_linearizable .strictV2_12 "p" delayed updatesApart (by decide)).1, by decide⟩

/-- Both updates read the toxic before either writes it. -/
def updatesCrossing : List ToxicEvent :=
  [.call (.update "latency_upstream" setLatency), .call (.update "latency_upstream" setJitter),
    .proceed 0, .proceed 1, .proceed 0, .proceed 1]

/-- Two additions of one name, in each direction one. -/
def addsCrossing : List ToxicEvent :=
  .call (.add (latencyToxic "upstream" (some "slow"))) :: .call (.add (latencyToxic "downstream" (some "slow"))) ::
    (List.replicate 3 [.proceed 0, .proceed 1]).flatten

/-- What an update answers that leaves these attributes. -/
def answered (latency jitter : UInt64) : ToxicTask :=
  .done (.ok (.toxic ⟨"latency_upstream", "latency", "upstream", 1, [("latency", .int latency), ("jitter", .int jitter)]⟩))

/-- Both updates succeed and only the second has taken effect, which neither order of
them explains; and both additions succeed. -/
theorem toxics_not_linearizable :
    (¬ ∃ history, Linearizes (ToxicOp.alone .strictV2_12 "p") plans
      (after .strictV2_12 "p" delayed updatesCrossing).finished delayed
      (after .strictV2_12 "p" delayed updatesCrossing).proxy history) ∧
    plainSpec.NamesUnique ∧
    ¬ ∀ spec ∈ (after .strictV2_12 "p" (some plainSpec) addsCrossing).proxy, spec.NamesUnique := by
  refine ⟨?_, List.nodup_nil, ?_⟩
  · rintro ⟨history, h⟩
    have hcalls : (after .strictV2_12 "p" delayed updatesCrossing).calls =
        [⟨.update "latency_upstream" setLatency, answered 5 0⟩, ⟨.update "latency_upstream" setJitter, answered 100 7⟩] := by
      decide +kernel
    have hmem : ∀ x, x ∈ history ↔ x ∈ [(0, .update "latency_upstream" setLatency, answered 5 0),
        (1, .update "latency_upstream" setJitter, answered 100 7)] := by
      rintro ⟨i, op, task⟩
      rw [h.exactly, finished, hcalls]
      constructor
      · rintro ⟨hat, -⟩
        cases i with
        | zero =>
          cases hat
          exact List.mem_cons_self
        | succ i =>
          cases i with
          | zero =>
            cases hat
            exact List.mem_cons_of_mem _ List.mem_cons_self
          | succ i => cases hat
      · intro hat
        rcases List.mem_cons.1 hat with heq | hat
        · cases heq
          exact ⟨rfl, rfl⟩
        · cases List.mem_singleton.1 hat
          exact ⟨rfl, rfl⟩
    have hperm := (List.perm_ext_iff_of_nodup (List.Nodup.of_map _ h.once) (by decide)).2 hmem
    rcases List.perm_pair.1 hperm with rfl | rfl
    · exact absurd h.results (by decide +kernel)
    · exact absurd h.results (by decide +kernel)
  · decide

end ToxicControl

end Eggchaos
