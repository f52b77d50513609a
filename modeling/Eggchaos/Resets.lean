import Eggchaos.FailedUpdates
/-!
# What a reset leaves

A `reset` on its own: no other call runs, supervisors take their turns. It
enables every entry and clears its plans in one section, and tries the binds
after that, one by one, collecting the names that fail. An entry whose bind
fails is left enabled, so a reset leaves what it reports exactly if no bind
fails and every policy has a generation to spare (`reset_reported_iff`).
-/

namespace Eggchaos
open Lib

/-! ## A reset alone -/

/-- What a reset meets: the shutdown flag, and how the bind of each proxy ends. -/
structure ResetEnv where
  down : Bool
  binds : String → Except String SocketAddr

/-- Only a bind looks at this. -/
def ResetEnv.bind (env : ResetEnv) : Task → Except String SocketAddr
  | .binding _ caller => env.binds caller.name
  | _ => .error ""

def resetStep (seed : UInt64) (env : ResetEnv) (x : ControlState × Task) : AloneOp → ControlState × Task
  | .advance => if env.down then x.1.proceedDown seed x.2 (env.bind x.2) else x.1.proceed seed x.2 (env.bind x.2)
  | .supervisor k turn => (x.1.step seed (.supervisor k turn), x.2)

/-- `reset` with nothing beside it. -/
def resetAlone (seed : UInt64) (env : ResetEnv) (s : ControlState) (ops : List AloneOp) : ControlState × Task :=
  run (resetStep seed env) (s.start seed .reset) ops

/-! ## What a reset reports -/

/-- The addresses and the seed namespaces stay, and no faults are left. -/
structure ProxySpec.Cleared (before after : ProxySpec) : Prop where
  listen : after.listen = before.listen
  upstream : after.upstream = before.upstream
  plans : ∀ direction, (after.policy direction).snapshot.plan = .empty ∧ after.mirror direction = .empty
  seeds : ∀ direction, (after.policy direction).snapshot.seedNamespace = (before.policy direction).snapshot.seedNamespace

/-- The bind of this proxy fails. -/
def ResetEnv.BindFails (env : ResetEnv) (s : ControlState) (name : String) : Prop :=
  env.down = false ∧ (∃ entry, s.proxies.get name = some entry ∧ entry.running = false) ∧ (env.binds name).isOk = false

/-- The state that a report means: those whose bind failed are disabled, all others
run, and each is cleared. -/
structure ResetEnv.Reported (env : ResetEnv) (s s' : ControlState) (failed : List String) : Prop where
  cleared : ∀ name entry, s.proxies.get name = some entry →
    ∃ entry', s'.proxies.get name = some entry' ∧ entry.spec.Cleared entry'.spec
  exactly : ∀ name, name ∈ failed ↔ env.BindFails s name
  disabled : ∀ name ∈ failed, ∀ entry', s'.proxies.get name = some entry' →
    entry'.spec.enabled = false ∧ entry'.running = false
  enabled : ∀ name, name ∉ failed → ∀ entry', s'.proxies.get name = some entry' →
    entry'.spec.enabled = true ∧ entry'.running = true

/-- The policy has a generation to spare, or nothing to clear. -/
def ProxySpec.Clears (spec : ProxySpec) (direction : Direction) : Prop :=
  (spec.policy direction).snapshot.generation = u64Max →
    (spec.policy direction).snapshot.plan = .empty ∧ spec.mirror direction = .empty

/-- Every proxy that is not running can be started, and every plan cleared. -/
structure ResetEnv.Clean (env : ResetEnv) (s : ControlState) : Prop where
  starts : ∀ name entry, s.proxies.get name = some entry → entry.running = false →
    env.down = false ∧ (env.binds name).isOk = true
  clears : ∀ name entry, s.proxies.get name = some entry → ∀ direction, entry.spec.Clears direction

/-! ## The write section -/

namespace ProxySpec

variable (spec : ProxySpec)

theorem clearDirection_cases (direction : Direction) :
    ((spec.policy direction).snapshot.generation = u64Max ∧ (spec.clearDirection direction).2 = spec) ∨
      (spec.policy direction).snapshot.generation ≠ u64Max ∧ ∃ next : PublishedPolicy, next.plan = .empty ∧
        next.seedNamespace = (spec.policy direction).snapshot.seedNamespace ∧
        (spec.clearDirection direction).2 = (spec.withPolicy direction ⟨next⟩).withMirror direction .empty := by
  unfold clearDirection
  rcases (spec.policy direction).publish_valid FaultPlan.validate_empty (spec.policy direction).snapshot.seedNamespace with
    ⟨hfull, he⟩ | ⟨hspare, next, hnext, hplan, hseed⟩
  · rw [he]
    exact .inl ⟨hfull, spec.withPolicy_self direction⟩
  · rw [hnext]
    exact .inr ⟨hspare, next, hplan, hseed, rfl⟩

/-- What `reset` makes of one direction. -/
structure ClearedIn (direction : Direction) (spec' : ProxySpec) : Prop where
  listen : spec'.listen = spec.listen
  upstream : spec'.upstream = spec.upstream
  enabled : spec'.enabled = spec.enabled
  seed : (spec'.policy direction).snapshot.seedNamespace = (spec.policy direction).snapshot.seedNamespace
  plans : ((spec'.policy direction).snapshot.plan = .empty ∧ spec'.mirror direction = .empty) ↔ spec.Clears direction
  other : ∀ other, other ≠ direction → spec'.policy other = spec.policy other ∧ spec'.mirror other = spec.mirror other

theorem clearDirection_clears (direction : Direction) : spec.ClearedIn direction (spec.clearDirection direction).2 := by
  rcases spec.clearDirection_cases direction with ⟨hfull, hsame⟩ | ⟨hspare, next, hplan, hseed, hcleared⟩
  · rw [hsame]
    exact ⟨rfl, rfl, rfl, rfl, ⟨fun h _ => h, fun h => h hfull⟩, fun _ _ => ⟨rfl, rfl⟩⟩
  · rw [hcleared]
    have hclears : spec.Clears direction := fun hfull => absurd hfull hspare
    cases direction with
    | upstream =>
      refine ⟨rfl, rfl, rfl, hseed, iff_of_true ⟨hplan, rfl⟩ hclears, fun other hother => ?_⟩
      cases other with
      | upstream => exact absurd rfl hother
      | downstream => exact ⟨rfl, rfl⟩
    | downstream =>
      refine ⟨rfl, rfl, rfl, hseed, iff_of_true ⟨hplan, rfl⟩ hclears, fun other hother => ?_⟩
      cases other with
      | upstream => exact ⟨rfl, rfl⟩
      | downstream => exact absurd rfl hother

end ProxySpec

namespace ManagedProxy

variable (entry : ManagedProxy)

theorem cleared_enabled : entry.cleared.spec.enabled = true := by
  have hup := ProxySpec.clearDirection_clears { entry.spec with enabled := true } .upstream
  have hdown :=
    ProxySpec.clearDirection_clears (ProxySpec.clearDirection { entry.spec with enabled := true } .upstream).2 .downstream
  exact hdown.enabled.trans hup.enabled

/-- The plans of a cleared entry are gone exactly if each policy could publish, or
had nothing to clear. -/
theorem cleared_spec : entry.spec.Cleared entry.cleared.spec ↔ ∀ direction, entry.spec.Clears direction := by
  have hup := ProxySpec.clearDirection_clears { entry.spec with enabled := true } .upstream
  have hdown :=
    ProxySpec.clearDirection_clears (ProxySpec.clearDirection { entry.spec with enabled := true } .upstream).2 .downstream
  obtain ⟨hpolicy, hmirror⟩ := hup.other .downstream (by decide)
  obtain ⟨hpolicy', hmirror'⟩ := hdown.other .upstream (by decide)
  change entry.cleared.spec.policy .upstream = _ at hpolicy'
  change entry.cleared.spec.mirror .upstream = _ at hmirror'
  have hbefore : (ProxySpec.clearDirection { entry.spec with enabled := true } .upstream).2.Clears .downstream ↔
      entry.spec.Clears .downstream := by
    unfold ProxySpec.Clears
    rw [hpolicy, hmirror]
    exact Iff.rfl
  constructor
  · intro h direction
    cases direction with
    | upstream =>
      have hplans := h.plans .upstream
      rw [hpolicy', hmirror'] at hplans
      exact hup.plans.1 hplans
    | downstream => exact hbefore.1 (hdown.plans.1 (h.plans .downstream))
  · intro h
    refine ⟨hdown.listen.trans hup.listen, hdown.upstream.trans hup.upstream, ?_, ?_⟩
    · intro direction
      cases direction with
      | upstream =>
        rw [hpolicy', hmirror']
        exact hup.plans.2 (h .upstream)
      | downstream => exact hdown.plans.2 (hbefore.2 (h .downstream))
    · intro direction
      cases direction with
      | upstream =>
        rw [hpolicy']
        exact hup.seed
      | downstream => exact hdown.seed.trans (congrArg (·.snapshot.seedNamespace) hpolicy)

end ManagedProxy

/-! ## The loop over the binds -/

namespace Registry

variable {r : Registry}

/-- With each name once, an entry is the one of its name. -/
theorem get_of_mem (hunique : (r.map (·.1)).Nodup) {name : String} {entry : ManagedProxy} (h : (name, entry) ∈ r) :
    r.get name = some entry := by
  induction r with
  | nil => cases h
  | cons p r ih =>
    rw [List.map_cons, List.nodup_cons] at hunique
    by_cases hname : p.1 = name
    · rcases List.mem_cons.1 h with rfl | hmem
      · simp [get]
      · exact absurd (hname ▸ List.mem_map_of_mem hmem) hunique.1
    · have hmem : (name, entry) ∈ r := by
        rcases List.mem_cons.1 h with rfl | hmem
        · exact absurd rfl hname
        · exact hmem
      have hrest := ih hunique.2 hmem
      simpa [get, hname] using hrest

end Registry

/-- The names that `names` lists are those of the entries that match. -/
theorem ControlState.mem_names {s : ControlState} (hunique : (s.proxies.map (·.1)).Nodup) (p : ManagedProxy → Bool)
    (name : String) : name ∈ s.names p ↔ ∃ entry, s.proxies.get name = some entry ∧ p entry = true := by
  unfold ControlState.names
  rw [List.mem_insertionSort]
  constructor
  · intro h
    obtain ⟨⟨name', entry⟩, hmem, rfl⟩ := List.mem_map.1 h
    obtain ⟨hmem, hp⟩ := List.mem_filter.1 hmem
    exact ⟨entry, Registry.get_of_mem hunique hmem, hp⟩
  · rintro ⟨entry, hget, hp⟩
    exact List.mem_map.2 ⟨(name, entry), List.mem_filter.2 ⟨Registry.mem_of_get hget, hp⟩, rfl⟩

/-- How far a reset has come. The names still to do and those that failed were not
running and are only cleared; all others run. -/
structure ResetEnv.Progress (env : ResetEnv) (s₀ : ControlState) (todo failed : List String) (s : ControlState) : Prop where
  entries : ∀ name entry, s₀.proxies.get name = some entry → ∃ entry', s.proxies.get name = some entry' ∧
    entry'.spec = entry.cleared.spec ∧ (entry'.running = true ↔ name ∉ todo ∧ name ∉ failed)
  kept : ∀ name, s₀.proxies.get name = none → s.proxies.get name = none
  stopped : ∀ name, name ∈ todo ∨ name ∈ failed → ∃ entry, s₀.proxies.get name = some entry ∧ entry.running = false
  distinct : todo.Nodup ∧ ∀ name ∈ todo, name ∉ failed
  refused : ∀ name ∈ failed, env.down = true ∨ (env.binds name).isOk = false
  started : ∀ name entry, s₀.proxies.get name = some entry → entry.running = false → name ∉ todo → name ∉ failed →
    env.down = false ∧ (env.binds name).isOk = true

/-- Where a reset can be. -/
def ResetPhase (env : ResetEnv) (s₀ s : ControlState) : Task → Prop
  | .clearing => s.proxies = s₀.proxies
  | .rereading (.reset name rest failed) => env.Progress s₀ (name :: rest) failed s
  | .binding _ (.reset name rest failed) => env.down = false ∧ env.Progress s₀ (name :: rest) failed s
  | .spawning _ (.reset name rest failed) | .storing _ _ (.reset name rest failed) =>
    env.down = false ∧ (env.binds name).isOk = true ∧ env.Progress s₀ (name :: rest) failed s
  | .returned (.ok (.report _ failed)) => env.Progress s₀ [] failed s
  | _ => False

namespace ResetEnv.Progress

variable {env : ResetEnv} {s₀ s s' : ControlState} {todo rest failed : List String} {name : String}

/-- After the write section, the names of the entries that were not running are to do. -/
theorem cleared (hunique : (s₀.proxies.map (·.1)).Nodup) (hsame : s.proxies = s₀.proxies) :
    env.Progress s₀ (s.names fun entry => !entry.running) [] s.clear := by
  have hget : ∀ name, s.clear.proxies.get name = (s₀.proxies.get name).map (·.cleared) := by
    intro name
    rw [← hsame]
    exact s.proxies.get_map (·.cleared) name
  have hkeys : (s.proxies.map (·.1)).Nodup := by
    rw [hsame]
    exact hunique
  have hmem : ∀ name, name ∈ s.names (fun entry => !entry.running) ↔
      ∃ entry, s₀.proxies.get name = some entry ∧ entry.running = false := by
    intro name
    rw [ControlState.mem_names hkeys, hsame]
    simp only [Bool.not_eq_true']
  refine ⟨?_, ?_, ?_, ?_, ?_, ?_⟩
  · intro name entry hentry
    refine ⟨entry.cleared, by rw [hget, hentry]; rfl, rfl, ?_⟩
    have hrunning : entry.cleared.running = entry.running := rfl
    rw [hmem, hrunning]
    constructor
    · intro hrun
      refine ⟨?_, List.not_mem_nil⟩
      rintro ⟨entry', hentry', hstopped⟩
      rw [hentry] at hentry'
      cases hentry'
      rw [hrun] at hstopped
      cases hstopped
    · rintro ⟨hnone, -⟩
      by_contra hrun
      exact hnone ⟨entry, hentry, by simpa using hrun⟩
  · intro name hnone
    rw [hget, hnone]
    rfl
  · rintro name (htodo | hfailed)
    · exact (hmem name).1 htodo
    · cases hfailed
  · have hlisted : ((s.proxies.filter fun e => !e.2.running).map (·.1)).Nodup :=
      hkeys.sublist (List.filter_sublist.map _)
    exact ⟨(List.perm_insertionSort _ _).nodup_iff.2 hlisted, fun name _ => List.not_mem_nil⟩
  · intro name hname
    cases hname
  · intro name entry hentry hstopped htodo
    exact absurd ((hmem name).2 ⟨entry, hentry, hstopped⟩) htodo

/-- The registry does not change. -/
theorem same (h : env.Progress s₀ todo failed s) (hp : s'.proxies = s.proxies) : env.Progress s₀ todo failed s' where
  entries := by
    rw [hp]
    exact h.entries
  kept := by
    rw [hp]
    exact h.kept
  stopped := h.stopped
  distinct := h.distinct
  refused := h.refused
  started := h.started

/-- The first name to do is still there. -/
theorem present (h : env.Progress s₀ (name :: rest) failed s) : ∃ entry', s.proxies.get name = some entry' := by
  obtain ⟨entry, hentry, -⟩ := h.stopped name (.inl List.mem_cons_self)
  obtain ⟨entry', hget, -⟩ := h.entries name entry hentry
  exact ⟨entry', hget⟩

/-- `start_stored` fails: the name is reported and its entry left as it is. -/
theorem fail (h : env.Progress s₀ (name :: rest) failed s) (hfails : env.down = true ∨ (env.binds name).isOk = false) :
    env.Progress s₀ rest (failed ++ [name]) s := by
  obtain ⟨hname, hrest⟩ := List.nodup_cons.1 h.distinct.1
  refine ⟨?_, h.kept, ?_, ⟨hrest, ?_⟩, ?_, ?_⟩
  · intro name' entry hentry
    obtain ⟨entry', hget, hspec, hrunning⟩ := h.entries name' entry hentry
    refine ⟨entry', hget, hspec, hrunning.trans ?_⟩
    simp only [List.mem_cons, List.mem_append, List.not_mem_nil, or_false, not_or]
    tauto
  · intro name' hname'
    refine h.stopped name' ?_
    simp only [List.mem_append, List.mem_singleton] at hname'
    simp only [List.mem_cons]
    tauto
  · intro name' hname' hfailed
    rcases List.mem_append.1 hfailed with hfailed | hsame
    · exact h.distinct.2 name' (List.mem_cons_of_mem _ hname') hfailed
    · exact hname (List.mem_singleton.1 hsame ▸ hname')
  · intro name' hname'
    rcases List.mem_append.1 hname' with hfailed | hsame
    · exact h.refused name' hfailed
    · rw [List.mem_singleton.1 hsame]
      exact hfails
  · intro name' entry hentry hstopped htodo hfailed
    simp only [List.mem_append, List.mem_singleton, not_or] at hfailed
    exact h.started name' entry hentry hstopped (by simp [hfailed.2, htodo]) hfailed.1

/-- `start_stored` succeeds. -/
theorem store (h : env.Progress s₀ (name :: rest) failed s) (hup : env.down = false) (hbound : (env.binds name).isOk = true)
    (bound : SocketAddr) (k : Nat) : env.Progress s₀ rest failed (s.store name bound k) := by
  obtain ⟨hname, hrest⟩ := List.nodup_cons.1 h.distinct.1
  refine ⟨?_, ?_, ?_, ⟨hrest, ?_⟩, h.refused, ?_⟩
  · intro name' entry hentry
    obtain ⟨entry', hget, hspec, hrunning⟩ := h.entries name' entry hentry
    rw [ControlState.store_proxies, Registry.get_modify]
    by_cases hsame : name' = name
    · subst hsame
      rw [if_pos rfl, hget]
      refine ⟨_, rfl, ?_, iff_of_true rfl ⟨hname, h.distinct.2 name' List.mem_cons_self⟩⟩
      have henabled := entry.cleared_enabled
      rw [← hspec] at henabled ⊢
      simp only [ManagedProxy.stored, ← henabled]
    · rw [if_neg hsame, hget]
      refine ⟨entry', rfl, hspec, hrunning.trans ?_⟩
      simp [hsame]
  · intro name' hnone
    rw [ControlState.store_proxies, Registry.get_modify, h.kept name' hnone]
    split <;> rfl
  · intro name' hname'
    exact h.stopped name' (hname'.imp_left (List.mem_cons_of_mem _))
  · intro name' hname'
    exact h.distinct.2 name' (List.mem_cons_of_mem _ hname')
  · intro name' entry hentry hstopped htodo hfailed
    by_cases hsame : name' = name
    · rw [hsame]
      exact ⟨hup, hbound⟩
    · exact h.started name' entry hentry hstopped (by simp [hsame, htodo]) hfailed

end ResetEnv.Progress

section
variable {env : ResetEnv} {s₀ s : ControlState} {task : Task} {seed : UInt64}

theorem ResetPhase.same {s' : ControlState} (h : ResetPhase env s₀ s task) (hp : s'.proxies = s.proxies) :
    ResetPhase env s₀ s' task := by
  cases task with
  | clearing => exact hp.trans h
  | rereading caller =>
    cases caller with
    | reset name rest failed => exact h.same hp
    | _ => exact h.elim
  | binding listen caller =>
    cases caller with
    | reset name rest failed => exact ⟨h.1, h.2.same hp⟩
    | _ => exact h.elim
  | spawning bound caller | storing bound k caller =>
    cases caller with
    | reset name rest failed => exact ⟨h.1, h.2.1, h.2.2.same hp⟩
    | _ => exact h.elim
  | returned result =>
    cases result with
    | ok answer =>
      cases answer with
      | report generation failed => exact h.same hp
      | generation generation => exact h.elim
    | error e => exact h.elim
  | _ => exact h.elim

theorem resetNext_phase {todo failed : List String} (h : env.Progress s₀ todo failed s) :
    ResetPhase env s₀ (s.resetNext todo failed).1 (s.resetNext todo failed).2 := by
  cases todo with
  | nil => exact h.same rfl
  | cons name rest => exact h

/-- One await of the reset. -/
theorem advance_reset (hunique : (s₀.proxies.map (·.1)).Nodup) (h : ResetPhase env s₀ s task) :
    ResetPhase env s₀ (resetStep seed env (s, task) .advance).1 (resetStep seed env (s, task) .advance).2 := by
  have hclearing (bind : Except String SocketAddr) (hsame : s.proxies = s₀.proxies) :
      ResetPhase env s₀ (s.proceed seed .clearing bind).1 (s.proceed seed .clearing bind).2 :=
    resetNext_phase (.cleared hunique hsame)
  unfold resetStep
  cases hdown : env.down with
  | true =>
    cases task with
    | clearing => exact hclearing (env.bind .clearing) h
    | rereading caller =>
      cases caller with
      | reset name rest failed =>
        obtain ⟨entry', hget⟩ := h.present
        simp only [if_true, ControlState.proceedDown, Caller.name, hget]
        exact resetNext_phase (h.fail (.inl hdown))
      | _ => exact h.elim
    | binding listen caller =>
      cases caller with
      | reset name rest failed => exact absurd (h.1.symm.trans hdown) Bool.false_ne_true
      | _ => exact h.elim
    | spawning bound caller =>
      cases caller with
      | reset name rest failed => exact absurd (h.1.symm.trans hdown) Bool.false_ne_true
      | _ => exact h.elim
    | storing bound k caller =>
      cases caller with
      | reset name rest failed => exact absurd (h.1.symm.trans hdown) Bool.false_ne_true
      | _ => exact h.elim
    | returned result => exact h
    | _ => exact h.elim
  | false =>
    cases task with
    | clearing => exact hclearing (env.bind .clearing) h
    | rereading caller =>
      cases caller with
      | reset name rest failed =>
        obtain ⟨entry', hget⟩ := h.present
        simp only [Bool.false_eq_true, if_false, ControlState.proceed, Caller.name, hget]
        exact ⟨hdown, h⟩
      | _ => exact h.elim
    | binding listen caller =>
      cases caller with
      | reset name rest failed =>
        simp only [Bool.false_eq_true, if_false, ControlState.proceed, ResetEnv.bind, Caller.name]
        split
        · next reason hbind => exact resetNext_phase (h.2.fail (.inr (by rw [hbind]; rfl)))
        · next bound hbind => exact ⟨hdown, by rw [hbind]; rfl, h.2⟩
      | _ => exact h.elim
    | spawning bound caller =>
      cases caller with
      | reset name rest failed => exact ⟨hdown, h.2.1, h.2.2.same rfl⟩
      | _ => exact h.elim
    | storing bound k caller =>
      cases caller with
      | reset name rest failed =>
        obtain ⟨-, hbound, hprogress⟩ := h
        obtain ⟨entry', hget⟩ := hprogress.present
        simp only [Bool.false_eq_true, if_false, ControlState.proceed, Caller.name, hget]
        exact resetNext_phase (hprogress.store hdown hbound bound k)
      | _ => exact h.elim
    | returned result => exact h
    | _ => exact h.elim

theorem resetStep_phase (hunique : (s₀.proxies.map (·.1)).Nodup) {x : ControlState × Task} (h : ResetPhase env s₀ x.1 x.2)
    (o : AloneOp) : ResetPhase env s₀ (resetStep seed env x o).1 (resetStep seed env x o).2 := by
  cases o with
  | advance => exact advance_reset hunique h
  | supervisor k turn => exact h.same (x.1.step_supervisor_proxies seed k turn)

end

/-- From any name on, the loop comes to its end. -/
theorem resetNext_returns (seed : UInt64) {todo failed : List String} (h : env.Progress s₀ todo failed s) :
    ∃ n s' generation failed', run (resetStep seed env) (s.resetNext todo failed) (List.replicate n .advance) =
      (s', .returned (.ok (.report generation failed'))) := by
  induction todo generalizing s failed with
  | nil => exact ⟨0, _, _, _, rfl⟩
  | cons name rest ih =>
    obtain ⟨entry', hget⟩ := h.present
    cases hdown : env.down with
    | true =>
      obtain ⟨n, hn⟩ := ih (h.fail (.inl hdown))
      have hfirst : resetStep seed env (s, .rereading (.reset name rest failed)) .advance =
          s.resetNext rest (failed ++ [name]) := by
        simp only [resetStep, hdown, if_true, ControlState.proceedDown, Caller.name, hget]
        rfl
      exact ⟨n + 1, by rwa [List.replicate_succ, ControlState.resetNext, run_cons, hfirst]⟩
    | false =>
      have hfirst : resetStep seed env (s, .rereading (.reset name rest failed)) .advance =
          (s, .binding entry'.spec.listen (.reset name rest failed)) := by
        simp only [resetStep, hdown, Bool.false_eq_true, if_false, ControlState.proceed, Caller.name, hget]
      cases hbind : env.binds name with
      | error reason =>
        obtain ⟨n, hn⟩ := ih (h.fail (.inr (by rw [hbind]; rfl)))
        have hsecond : resetStep seed env (s, .binding entry'.spec.listen (.reset name rest failed)) .advance =
            s.resetNext rest (failed ++ [name]) := by
          simp only [resetStep, hdown, Bool.false_eq_true, if_false, ControlState.proceed, ResetEnv.bind, Caller.name, hbind]
          rfl
        exact ⟨n + 2, by rwa [List.replicate_succ, List.replicate_succ, ControlState.resetNext, run_cons, run_cons,
          hfirst, hsecond]⟩
      | ok bound =>
        have hspawned : env.Progress s₀ (name :: rest) failed (s.spawn name) := h.same rfl
        obtain ⟨n, hn⟩ := ih (hspawned.store hdown (by rw [hbind]; rfl) bound s.supervisors.length)
        have hsecond : resetStep seed env (s, .binding entry'.spec.listen (.reset name rest failed)) .advance =
            (s, .spawning bound (.reset name rest failed)) := by
          simp only [resetStep, hdown, Bool.false_eq_true, if_false, ControlState.proceed, ResetEnv.bind, Caller.name, hbind]
        have hthird : resetStep seed env (s, .spawning bound (.reset name rest failed)) .advance =
            (s.spawn name, .storing bound s.supervisors.length (.reset name rest failed)) := by
          simp only [resetStep, hdown, Bool.false_eq_true, if_false, ControlState.proceed, Caller.name]
        have hstill : (s.spawn name).proxies.get name = some entry' := hget
        have hfourth :
            resetStep seed env (s.spawn name, .storing bound s.supervisors.length (.reset name rest failed)) .advance =
            ((s.spawn name).store name bound s.supervisors.length).resetNext rest failed := by
          simp only [resetStep, hdown, Bool.false_eq_true, if_false, ControlState.proceed, Caller.name, hstill]
          rfl
        refine ⟨n + 4, ?_⟩
        iterate 4 rw [List.replicate_succ]
        rwa [ControlState.resetNext, run_cons, run_cons, run_cons, run_cons, hfirst, hsecond, hthird, hfourth]

/-- A reset alone returns, and always with a report. -/
theorem reset_returns (seed : UInt64) (env : ResetEnv) (hunique : (s.proxies.map (·.1)).Nodup) :
    ∃ n s' generation failed, resetAlone seed env s (List.replicate n .advance) =
      (s', .returned (.ok (.report generation failed))) := by
  have hcleared : env.Progress s (s.names fun entry => !entry.running) [] s.clear := .cleared hunique rfl
  obtain ⟨n, hn⟩ := resetNext_returns seed hcleared
  have hfirst : resetStep seed env (s.start seed .reset) .advance =
      s.clear.resetNext (s.names fun entry => !entry.running) [] := by
    cases hdown : env.down <;> simp only [resetStep, hdown] <;> rfl
  exact ⟨n + 1, by rwa [List.replicate_succ, resetAlone, run_cons, hfirst]⟩

section

variable {env : ResetEnv} {s s' : ControlState} {failed : List String}

/-- A name that is reported as failed is enabled, so what is reported is left only
if no bind failed. -/
theorem ResetEnv.Progress.clean (h : env.Progress s [] failed s') (hreported : env.Reported s s' failed) : env.Clean s := by
  refine ⟨fun name entry hget hstopped => ?_, fun name entry hget => ?_⟩
  · refine h.started name entry hget hstopped List.not_mem_nil fun hfailed => ?_
    obtain ⟨entry', hget', hspec, -⟩ := h.entries name entry hget
    -- it was enabled before its bind was tried
    have hdisabled := (hreported.disabled name hfailed entry' hget').1
    rw [hspec, entry.cleared_enabled] at hdisabled
    cases hdisabled
  · obtain ⟨entry', hget', hspec, -⟩ := h.entries name entry hget
    obtain ⟨entry'', hget'', hcleared⟩ := hreported.cleared name entry hget
    rw [hget'] at hget''
    cases hget''
    rw [hspec] at hcleared
    exact entry.cleared_spec.1 hcleared

theorem ResetEnv.Progress.none_failed (h : env.Progress s [] failed s') (hclean : env.Clean s) (name : String) :
    name ∉ failed := by
  intro hfailed
  obtain ⟨entry, hget, hstopped⟩ := h.stopped name (.inr hfailed)
  obtain ⟨hup, hbound⟩ := hclean.starts name entry hget hstopped
  rcases h.refused name hfailed with hdown | hfails
  · rw [hup] at hdown
    cases hdown
  · rw [hbound] at hfails
    cases hfails

/-- Where every bind succeeds, every proxy runs, enabled and cleared. -/
theorem ResetEnv.Progress.reported (h : env.Progress s [] failed s') (hclean : env.Clean s) :
    env.Reported s s' failed := by
  have hnone := h.none_failed hclean
  refine ⟨?_, ?_, fun name hfailed => absurd hfailed (hnone name), ?_⟩
  · intro name entry hget
    obtain ⟨entry', hget', hspec, -⟩ := h.entries name entry hget
    exact ⟨entry', hget', hspec ▸ entry.cleared_spec.2 (hclean.clears name entry hget)⟩
  · refine fun name => iff_of_false (hnone name) ?_
    rintro ⟨-, ⟨entry, hget, hstopped⟩, hfails⟩
    rw [(hclean.starts name entry hget hstopped).2] at hfails
    cases hfails
  · intro name hfailed entry' hget'
    cases hget : s.proxies.get name with
    | none =>
      rw [h.kept name hget] at hget'
      cases hget'
    | some entry =>
      obtain ⟨entry'', hget'', hspec, hrunning⟩ := h.entries name entry hget
      rw [hget'] at hget''
      cases hget''
      exact ⟨hspec ▸ entry.cleared_enabled, hrunning.2 ⟨List.not_mem_nil, hfailed⟩⟩

end

/-- A reset that returns has left what it reports exactly if every proxy that was
not running could be bound and started, and every policy that held a plan had a
generation left. -/
theorem reset_reported_iff (seed : UInt64) (env : ResetEnv) (s : ControlState) (hunique : (s.proxies.map (·.1)).Nodup)
    (ops : List AloneOp) {s' : ControlState} {generation : Nat} {failed : List String}
    (h : resetAlone seed env s ops = (s', .returned (.ok (.report generation failed)))) :
    env.Reported s s' failed ↔ env.Clean s := by
  have hstart : ResetPhase env s (s.start seed .reset).1 (s.start seed .reset).2 := Eq.refl s.proxies
  have hphase : ResetPhase env s (resetAlone seed env s ops).1 (resetAlone seed env s ops).2 :=
    run_inv (fun x : ControlState × Task => ResetPhase env s x.1 x.2) (fun _ o hx => resetStep_phase hunique hx o) hstart ops
  rw [h] at hphase
  have hprogress : env.Progress s [] failed s' := hphase
  exact ⟨hprogress.clean, hprogress.reported⟩

/-- The only proxy is not running, and its address is taken. -/
def addressTaken : ResetEnv := ⟨false, fun _ => .error "address in use"⟩

/-- The address is free. -/
def addressFree : ResetEnv := ⟨false, fun _ => .ok plainSpec.listen⟩

theorem importedState_unique : (importedState.proxies.map (·.1)).Nodup := by decide

theorem reset_reported_iff_free : ∃ s' generation,
    resetAlone 0 addressFree importedState (List.replicate 5 .advance) = (s', .returned (.ok (.report generation []))) ∧
      addressFree.Reported importedState s' [] := by
  refine ⟨_, _, rfl, (reset_reported_iff 0 addressFree importedState importedState_unique (List.replicate 5 .advance) rfl).2 ?_⟩
  have hspare : ∀ p ∈ importedState.proxies, ∀ direction ∈ [Direction.upstream, .downstream],
      (p.2.spec.policy direction).snapshot.generation ≠ u64Max := by decide
  refine ⟨fun name entry hget hstopped => ⟨rfl, rfl⟩, fun name entry hget direction hfull => ?_⟩
  exact absurd hfull (hspare (name, entry) (Registry.mem_of_get hget) direction (by cases direction <;> decide))

/-- A proxy whose bind fails is reported and stays enabled. -/
theorem taken_stays_enabled :
    ¬ ∀ (seed : UInt64) (env : ResetEnv) (s : ControlState), (s.proxies.map (·.1)).Nodup → ∀ (ops : List AloneOp)
        (s' : ControlState) (generation : Nat) (failed : List String),
          resetAlone seed env s ops = (s', .returned (.ok (.report generation failed))) → env.Reported s s' failed := by
  intro hall
  have hreported := hall 0 addressTaken importedState importedState_unique (List.replicate 3 .advance) _ _ ["p"] rfl
  have hdisabled := (hreported.disabled "p" List.mem_cons_self _ rfl).1
  exact absurd hdisabled (by decide)

end Eggchaos
