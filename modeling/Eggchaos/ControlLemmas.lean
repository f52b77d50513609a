import Eggchaos.Control
/-!
# Lemmas about the control plane

What a lookup finds after each change of the registry, and which registry each
part of a call leaves.
-/

namespace Eggchaos
open Lib

/-! ## The registry -/

namespace Registry

variable (r : Registry)

theorem get_modify (name name' : String) (f : ManagedProxy → ManagedProxy) :
    (r.modify name f).get name' = if name' = name then (r.get name').map f else r.get name' := by
  induction r with
  | nil => simp [modify, get]
  | cons p r ih =>
    obtain ⟨key, entry⟩ := p
    simp only [modify, get, List.map_cons, List.find?_cons] at ih ⊢
    by_cases hkey : key = name'
    · subst hkey
      by_cases hname : key = name
      · simp [hname]
      · simp [hname]
    · by_cases hname : key = name
      · simpa [hname, hkey, show ¬ name = name' from hname ▸ hkey] using ih
      · simpa [hname, hkey] using ih

theorem get_insert (name name' : String) (entry : ManagedProxy) :
    (r.insert name entry).get name' = (r.get name').or (if name = name' then some entry else none) := by
  simp only [insert, get, List.find?_append, List.find?_cons, List.find?_nil]
  by_cases hname : name = name'
  · cases r.find? (·.1 = name') <;> simp [hname]
  · cases r.find? (·.1 = name') <;> simp [hname]

theorem get_remove (name name' : String) :
    (r.remove name).get name' = if name' = name then none else r.get name' := by
  induction r with
  | nil => simp [remove, get]
  | cons p r ih =>
    obtain ⟨key, entry⟩ := p
    simp only [remove, get, List.filter_cons] at ih ⊢
    by_cases hname : key = name
    · subst hname
      by_cases hkey : name' = key
      · subst hkey
        simp
      · simpa [hkey, show ¬ key = name' from fun h => hkey h.symm] using ih
    · by_cases hkey : key = name'
      · subst hkey
        simp [hname]
      · simpa [hname, hkey] using ih

theorem get_map (f : ManagedProxy → ManagedProxy) (name : String) :
    Registry.get (r.map fun p => (p.1, f p.2)) name = (r.get name).map f := by
  induction r with
  | nil => rfl
  | cons p r ih =>
    simp only [get, List.map_cons, List.find?_cons] at ih ⊢
    by_cases hkey : p.1 = name
    · simp [hkey]
    · simpa [hkey] using ih

variable {r : Registry}

theorem mem_of_get {name : String} {entry : ManagedProxy} (h : r.get name = some entry) : (name, entry) ∈ r := by
  obtain ⟨p, hp, rfl⟩ := Option.map_eq_some_iff.1 h
  have hname : p.1 = name := by simpa using List.find?_some hp
  rw [← hname]
  exact List.mem_of_find?_eq_some hp

end Registry

/-! ## What calls leave of it -/

namespace ControlState

/-- The same state but for the generation. -/
structure Regenerated (s s' : ControlState) : Prop where
  proxies : s'.proxies = s.proxies
  supervisors : s'.supervisors = s.supervisors
  tokens : s'.tokens = s.tokens
  cancelled : s'.cancelled = s.cancelled
  calls : s'.calls = s.calls

namespace Regenerated

variable {s s' s'' : ControlState}

theorem refl (s : ControlState) : Regenerated s s := ⟨rfl, rfl, rfl, rfl, rfl⟩

theorem bump (s : ControlState) : Regenerated s s.bump := ⟨rfl, rfl, rfl, rfl, rfl⟩

theorem trans (h : Regenerated s s') (h' : Regenerated s' s'') : Regenerated s s'' where
  proxies := h'.proxies.trans h.proxies
  supervisors := h'.supervisors.trans h.supervisors
  tokens := h'.tokens.trans h.tokens
  cancelled := h'.cancelled.trans h.cancelled
  calls := h'.calls.trans h.calls

end Regenerated

variable (s : ControlState)

theorem patchFields_regenerated (name : String) (p : Patching) : Regenerated s (s.patchFields name p).1 := by
  unfold patchFields
  split <;> exact .refl s

theorem enabledDone_regenerated (name : String) (patch : Option ProxyPatch) :
    Regenerated s (s.enabledDone name patch).1 := by
  unfold enabledDone
  split
  · exact .refl s
  · split
    · exact .refl s
    · exact s.patchFields_regenerated _ _

theorem startAllNext_regenerated (names : List String) (firstError : Option ControlError) :
    Regenerated s (s.startAllNext names firstError).1 := by
  unfold startAllNext
  split
  · exact .refl s
  · split <;> exact .refl s

theorem resetNext_regenerated (names failed : List String) : Regenerated s (s.resetNext names failed).1 := by
  unfold resetNext
  split
  · exact .refl s
  · exact .bump s

theorem started_regenerated (caller : Caller) (result : Option ControlError) :
    Regenerated s (s.started caller result).1 := by
  cases caller with
  | setEnabled name patch =>
    cases result with
    | none => exact (Regenerated.bump s).trans (s.bump.enabledDone_regenerated name patch)
    | some e => exact .refl s
  | startAll name rest firstError => cases result <;> exact s.startAllNext_regenerated _ _
  | reset name rest failed => cases result <;> exact s.resetNext_regenerated _ _

theorem updated_regenerated (p : Patching) : Regenerated s (s.updated p).1 := by
  unfold updated
  split
  · exact .refl s
  · exact .bump s

end ControlState

/-- A call that has nothing of the registry in hand: it reads there next, or it is
done. -/
inductive Task.Resumed : Task → Prop
  | rereading (caller) : Resumed (.rereading caller)
  | viewing (name generation) : Resumed (.viewing name generation)
  | cloning (name patching) : Resumed (.cloning name patching)
  | returned (result) : Resumed (.returned result)

/-- The supervisor a call waits for. -/
def Task.awaits : Task → Option (String × Option Nat)
  | .stopping name done _ | .draining name _ _ _ done | .removed name done => some (name, done)
  | .abandoning name k _ _ => some (name, some k)
  | _ => none

/-- Calls that may find nothing to write: some only where their proxy is gone. -/
def Task.Leaves (r : Registry) : Task → Prop
  | .enabling name _ | .disabling name _ | .writingBack name _ _ | .changing name _ => r.get name = none
  | .rereading _ | .binding _ _ | .listing | .viewing _ _ | .cloning _ _ | .prebinding _ _ _ | .releasing _ _ _ _
  | .checking _ | .createBinding _ | .importing _ | .removing _ => True
  | _ => False

/-- A task that works on one proxy, or on none. -/
def Task.About (name : String) : Task → Prop
  | .enabling name' _ | .disabling name' _ | .stopping name' _ _ | .viewing name' _ | .cloning name' _
  | .writingBack name' _ _ | .prebinding name' _ _ | .releasing name' _ _ _ | .draining name' _ _ _ _
  | .respawning name' _ _ _ | .restoring name' _ _ _ _ | .removing name' | .removed name' _ | .changing name' _ => name' = name
  | .rereading caller | .binding _ caller | .spawning _ caller | .storing _ _ caller => caller.name = name
  | .checking spec | .createBinding spec | .createSpawning spec _ | .inserting spec _ _ | .importing spec => spec.name = name
  | .abandoning _ _ _ _ | .listing | .returned _ => True
  | .clearing => False

namespace ControlState

variable (s : ControlState)

theorem patchFields_resumed (name : String) (p : Patching) : (s.patchFields name p).2.Resumed := by
  unfold patchFields
  split
  · exact .returned _
  · exact .cloning name p

theorem enabledDone_resumed (name : String) (patch : Option ProxyPatch) : (s.enabledDone name patch).2.Resumed := by
  unfold enabledDone
  split
  · exact .returned _
  · split
    · exact .viewing name _
    · exact s.patchFields_resumed name _

theorem startAllNext_resumed (names : List String) (firstError : Option ControlError) :
    (s.startAllNext names firstError).2.Resumed := by
  unfold startAllNext
  split
  · exact .rereading _
  · split <;> exact .returned _

theorem resetNext_resumed (names failed : List String) : (s.resetNext names failed).2.Resumed := by
  unfold resetNext
  split
  · exact .rereading _
  · exact .returned _

theorem started_resumed (caller : Caller) (result : Option ControlError) : (s.started caller result).2.Resumed := by
  cases caller with
  | setEnabled name patch =>
    cases result with
    | none => exact s.bump.enabledDone_resumed name patch
    | some e => exact .returned _
  | startAll name rest firstError => cases result <;> exact s.startAllNext_resumed _ _
  | reset name rest failed => cases result <;> exact s.resetNext_resumed _ _

theorem updated_resumed (p : Patching) : (s.updated p).2.Resumed := by
  unfold updated
  split <;> exact .returned _

theorem start_regenerated (seed : UInt64) (request : ControlRequest) : Regenerated s (s.start seed request).1 := by
  unfold start
  cases request with
  | create spec =>
    dsimp only
    split <;> exact .refl s
  | importDefinition spec =>
    dsimp only
    split <;> exact .refl s
  | startAll => exact .refl s
  | setEnabled name enabled => cases enabled <;> exact .refl s
  | update name patch =>
    dsimp only
    split
    · exact .refl s
    · exact .refl s
    · exact s.patchFields_regenerated _ _
  | delete name => exact .refl s
  | reset => exact .refl s
  | change name change =>
    dsimp only
    split <;> exact .refl s

theorem askEnabled_proxies (name : String) (enabled : Bool) :
    (s.askEnabled name enabled).proxies = s.proxies.modify name (·.askedEnabled enabled) := rfl

theorem disable_proxies (name : String) (entry : ManagedProxy) :
    (s.disable name entry).proxies = s.proxies.modify name (·.disabled s.tokens) := rfl

theorem store_proxies (name : String) (bound : SocketAddr) (k : Nat) :
    (s.store name bound k).proxies = s.proxies.modify name (·.stored bound (s.tokenOf k) k) := rfl

theorem writeBack_proxies (name : String) (patch : ProxyPatch) (spec : ProxySpec) :
    (s.writeBack name patch spec).proxies = s.proxies.modify name (·.written patch spec) := rfl

theorem release_proxies (name : String) (entry : ManagedProxy) :
    (s.release name entry).proxies = s.proxies.modify name (·.released s.tokens) := rfl

theorem restore_proxies (name : String) (patch : ProxyPatch) (spec : ProxySpec) (bound : SocketAddr)
    (k : Nat) : (s.restore name patch spec bound k).proxies =
      s.proxies.modify name (·.restarted patch spec bound (s.tokenOf k) k) := rfl

theorem delete_proxies (name : String) (entry : ManagedProxy) :
    (s.delete name entry).proxies = s.proxies.remove name := rfl

theorem clear_proxies : s.clear.proxies = s.proxies.map fun p => (p.1, p.2.cleared) := rfl

theorem insertRunning_proxies (spec : ProxySpec) (bound : SocketAddr) (k : Nat) :
    (s.insertRunning spec bound k).proxies =
      s.proxies.insert spec.name ⟨spec, true, some bound, s.tokenOf k, some k, spec.fields⟩ := rfl

theorem insertStopped_proxies (spec : ProxySpec) :
    (s.insertStopped spec).proxies = s.proxies.insert spec.name ⟨spec, false, none, s.tokens, none, spec.fields⟩ := rfl

theorem applyChange_proxies (name : String) (change : PolicyChange) :
    (s.applyChange name change).proxies = s.proxies.modify name (·.changed change) := rfl

/-- A section leaves the calls, and the supervisors or spawns one that has yet to
look; it may cancel tokens. -/
structure Spawns (s s' : ControlState) : Prop where
  calls : s'.calls = s.calls
  cancelled : s.cancelled ⊆ s'.cancelled
  supervisors : s'.supervisors = s.supervisors ∨
    ∃ name, s'.supervisors = s.supervisors ++ [⟨name, s.tokens, .looking⟩]

theorem Spawns.same {s s' : ControlState} (hcalls : s'.calls = s.calls) (hcancelled : s'.cancelled = s.cancelled)
    (hsupervisors : s'.supervisors = s.supervisors) : Spawns s s' :=
  ⟨hcalls, hcancelled ▸ List.Subset.refl _, .inl hsupervisors⟩

theorem Spawns.cancels {s s' : ControlState} {token : Nat} (hcalls : s'.calls = s.calls)
    (hcancelled : s'.cancelled = token :: s.cancelled) (hsupervisors : s'.supervisors = s.supervisors) : Spawns s s' :=
  ⟨hcalls, hcancelled ▸ List.subset_cons_self _ _, .inl hsupervisors⟩

theorem Regenerated.spawns {s s' t : ControlState} (h : Regenerated s s') (hcalls : s.calls = t.calls)
    (hcancelled : t.cancelled ⊆ s.cancelled) (hsupervisors : s.supervisors = t.supervisors) : Spawns t s' where
  calls := h.calls.trans hcalls
  cancelled := h.cancelled ▸ hcancelled
  supervisors := .inl (h.supervisors.trans hsupervisors)

/-- Everything a completed await does: what it makes of the state and what the
call goes on with. -/
inductive Proceeds (seed : UInt64) (s : ControlState) : Task → ControlState × Task → Prop
  -- nothing is written
  | leaves {task out} (h : task.Leaves s.proxies) (hs : Regenerated s out.1) (ht : out.2.Resumed) :
      Proceeds seed s task out
  | returned {result} : Proceeds seed s (.returned result) (s, .returned result)
  | waits {task supervisor} (h : task.awaits = some supervisor) : Proceeds seed s task (s, task)
  | joined {task name done out} (h : task.awaits = some (name, done)) (hjoined : s.joined done)
      (hs : Regenerated s out.1) (ht : out.2.Resumed) : Proceeds seed s task out
  -- `set_enabled`
  | foundRunning {name patch entry out} (hget : s.proxies.get name = some entry) (hrun : entry.running = true)
      (hs : Regenerated (s.askEnabled name true) out.1) (ht : out.2.Resumed) :
      Proceeds seed s (.enabling name patch) out
  | foundStopped {name patch entry out} (hget : s.proxies.get name = some entry) (hrun : entry.running = false)
      (hs : Regenerated (s.askEnabled name false) out.1) (ht : out.2.Resumed) :
      Proceeds seed s (.disabling name patch) out
  | enables {name patch entry} (hget : s.proxies.get name = some entry) (hrun : entry.running = false) :
      Proceeds seed s (.enabling name patch) (s, .binding entry.spec.listen (.setEnabled name patch))
  | disables {name patch entry} (hget : s.proxies.get name = some entry) (hrun : entry.running = true) :
      Proceeds seed s (.disabling name patch) (s.disable name entry, .stopping name entry.done patch)
  -- `start_stored`
  | rereads {caller entry} (hget : s.proxies.get caller.name = some entry) :
      Proceeds seed s (.rereading caller) (s, .binding entry.spec.listen caller)
  | bound {listen caller bound} : Proceeds seed s (.binding listen caller) (s, .spawning bound caller)
  | spawns {bound caller} :
      Proceeds seed s (.spawning bound caller) (s.spawn caller.name, .storing bound s.supervisors.length caller)
  | stores {bound k caller entry out} (hget : s.proxies.get caller.name = some entry)
      (hs : Regenerated (s.store caller.name bound k) out.1) (ht : out.2.Resumed) :
      Proceeds seed s (.storing bound k caller) out
  | abandonsStart {bound k caller e next} :
      Proceeds seed s (.storing bound k caller) (s.abandon caller.name k e next)
  -- `reset`
  | clears {out} (hs : Regenerated s.clear out.1) (ht : out.2.Resumed) : Proceeds seed s .clearing out
  -- `update_proxy`
  | clones {name p entry} (hget : s.proxies.get name = some entry) (hvalid : (p.patch.apply entry.spec).validate = .ok ()) :
      Proceeds seed s (.cloning name p) (s, .writingBack name p (p.patch.apply entry.spec))
  | clonesRestart {name p entry} (hget : s.proxies.get name = some entry)
      (hvalid : (p.patch.apply entry.spec).validate = .ok ()) :
      Proceeds seed s (.cloning name p) (s, .prebinding name p (p.patch.apply entry.spec))
  | writes {name p spec entry out} (hget : s.proxies.get name = some entry)
      (hs : Regenerated (s.writeBack name p.patch spec) out.1) (ht : out.2.Resumed) :
      Proceeds seed s (.writingBack name p spec) out
  | prebound {name p spec bound} : Proceeds seed s (.prebinding name p spec) (s, .releasing name p spec bound)
  | releases {name p spec bound entry} (hget : s.proxies.get name = some entry) (hrun : entry.running = true) :
      Proceeds seed s (.releasing name p spec bound) (s.release name entry, .draining name p spec bound entry.done)
  | drained {name p spec bound done} (hjoined : s.joined done) :
      Proceeds seed s (.draining name p spec bound done) (s, .respawning name p spec bound)
  | respawns {name p spec bound} :
      Proceeds seed s (.respawning name p spec bound) (s.spawn name, .restoring name p spec bound s.supervisors.length)
  | restores {name p spec bound k entry out} (hget : s.proxies.get name = some entry)
      (hs : Regenerated (s.restore name p.patch spec bound k) out.1) (ht : out.2.Resumed) :
      Proceeds seed s (.restoring name p spec bound k) out
  | abandonsRestart {name p spec bound k e next} (hnone : s.proxies.get name = none) :
      Proceeds seed s (.restoring name p spec bound k) (s.abandon name k e next)
  -- `create_proxy` and `import_definition`
  | checks {spec} : Proceeds seed s (.checking spec) (s, .createBinding spec)
  | createBound {spec bound} :
      Proceeds seed s (.createBinding spec) (s, .createSpawning { spec.initPolicies seed with enabled := true } bound)
  | createSpawns {spec bound} :
      Proceeds seed s (.createSpawning spec bound) (s.spawn spec.name, .inserting spec bound s.supervisors.length)
  | inserts {spec bound k out} (hfree : s.proxies.get spec.name = none) (hroom : s.proxies.length < maxStreamProxies)
      (hs : Regenerated (s.insertRunning spec bound k) out.1) (ht : out.2.Resumed) :
      Proceeds seed s (.inserting spec bound k) out
  | abandonsCreate {spec bound k e next} :
      Proceeds seed s (.inserting spec bound k) (s.abandon spec.name k e next)
  | imports {spec out} (hfree : s.proxies.get spec.name = none) (hs : Regenerated (s.insertStopped spec) out.1)
      (ht : out.2.Resumed) : Proceeds seed s (.importing spec) out
  -- `delete_proxy` and the fault operations
  | removes {name entry} (hget : s.proxies.get name = some entry) :
      Proceeds seed s (.removing name) (s.delete name entry, .removed name entry.done)
  | changes {name change entry out} (hget : s.proxies.get name = some entry)
      (hs : Regenerated (s.applyChange name change) out.1) (ht : out.2.Resumed) :
      Proceeds seed s (.changing name change) out

theorem proceed_cases (seed : UInt64) (task : Task) (bind : Except String SocketAddr) :
    Proceeds seed s task (s.proceed seed task bind) := by
  unfold proceed
  cases task with
  | enabling name patch =>
    dsimp only
    split
    · next hnone => exact .leaves hnone (.refl s) (.returned _)
    · next entry hget =>
      split
      · next hrun => exact .foundRunning hget hrun (enabledDone_regenerated _ _ _) (enabledDone_resumed _ _ _)
      · next hrun => exact .enables hget (by simpa using hrun)
  | disabling name patch =>
    dsimp only
    split
    · next hnone => exact .leaves hnone (.refl s) (.returned _)
    · next entry hget =>
      split
      · next hrun =>
        exact .foundStopped hget (by simpa using hrun) (enabledDone_regenerated _ _ _) (enabledDone_resumed _ _ _)
      · next hrun => exact .disables hget (by simpa using hrun)
  | stopping name done patch =>
    dsimp only
    split
    · next hjoined =>
      exact .joined rfl hjoined ((Regenerated.bump s).trans (s.bump.enabledDone_regenerated _ _))
        (enabledDone_resumed _ _ _)
    · exact .waits rfl
  | rereading caller =>
    dsimp only
    split
    · next hget => exact .rereads hget
    · exact .leaves trivial (startAllNext_regenerated _ _ _) (startAllNext_resumed _ _ _)
    · exact .leaves trivial (resetNext_regenerated _ _ _) (resetNext_resumed _ _ _)
    · exact .leaves trivial (.refl s) (.returned _)
  | binding listen caller =>
    cases bind with
    | error reason => exact .leaves trivial (started_regenerated _ _ _) (started_resumed _ _ _)
    | ok bound => exact .bound
  | spawning bound caller => exact .spawns
  | storing bound k caller =>
    dsimp only
    split
    · exact .abandonsStart
    · next hget => exact .stores hget (started_regenerated _ _ _) (started_resumed _ _ _)
  | abandoning name k e caller =>
    dsimp only
    split
    · next hjoined =>
      split
      · exact .joined rfl hjoined (started_regenerated _ _ _) (started_resumed _ _ _)
      · exact .joined rfl hjoined (.refl s) (.returned _)
    · exact .waits rfl
  | listing => exact .leaves trivial (startAllNext_regenerated _ _ _) (startAllNext_resumed _ _ _)
  | clearing => exact .clears (resetNext_regenerated _ _ _) (resetNext_resumed _ _ _)
  | viewing name generation =>
    dsimp only
    split <;> exact .leaves trivial (.refl s) (.returned _)
  | cloning name p =>
    dsimp only
    split
    · exact .leaves trivial (.refl s) (.returned _)
    · next hget =>
      split
      · exact .leaves trivial (.refl s) (.returned _)
      · next hvalid =>
        split
        · exact .clones hget hvalid
        · exact .clonesRestart hget hvalid
  | writingBack name p spec =>
    dsimp only
    split
    · next hnone => exact .leaves hnone (.refl s) (.returned _)
    · next hget => exact .writes hget (updated_regenerated _ _) (updated_resumed _ _)
  | prebinding name p spec =>
    cases bind with
    | error reason => exact .leaves trivial (.refl s) (.returned _)
    | ok bound => exact .prebound
  | releasing name p spec bound =>
    dsimp only
    split
    · exact .leaves trivial (.refl s) (.returned _)
    · next hget =>
      split
      · exact .leaves trivial (.refl s) (.returned _)
      · next hrun => exact .releases hget (by simpa using hrun)
  | draining name p spec bound done =>
    dsimp only
    split
    · next hjoined => exact .drained hjoined
    · exact .waits rfl
  | respawning name p spec bound => exact .respawns
  | restoring name p spec bound k =>
    dsimp only
    split
    · next hnone => exact .abandonsRestart hnone
    · next hget => exact .restores hget (updated_regenerated _ _) (updated_resumed _ _)
  | checking spec =>
    dsimp only
    split
    · exact .leaves trivial (.refl s) (.returned _)
    · split
      · exact .leaves trivial (.refl s) (.returned _)
      · exact .checks
  | createBinding spec =>
    cases bind with
    | error reason => exact .leaves trivial (.refl s) (.returned _)
    | ok bound => exact .createBound
  | createSpawning spec bound => exact .createSpawns
  | inserting spec bound k =>
    dsimp only
    split
    · exact .abandonsCreate
    · next hfree =>
      split
      · exact .abandonsCreate
      · next hroom => exact .inserts (by simpa using hfree) (Nat.lt_of_not_le hroom) (.bump _) (.returned _)
  | importing spec =>
    dsimp only
    split
    · exact .leaves trivial (.refl s) (.returned _)
    · next hfree => exact .imports (by simpa using hfree) (.bump _) (.returned _)
  | removing name =>
    dsimp only
    split
    · exact .leaves trivial (.refl s) (.returned _)
    · next hget => exact .removes hget
  | removed name done =>
    dsimp only
    split
    · next hjoined => exact .joined rfl hjoined (.bump s) (.returned _)
    · exact .waits rfl
  | changing name change =>
    dsimp only
    split
    · next hnone => exact .leaves hnone (.refl s) (.returned _)
    · next hget =>
      split
      · exact .changes hget (.refl _) (.returned _)
      · exact .changes hget (.bump _) (.returned _)
  | returned result => exact .returned

theorem Proceeds.spawning {seed : UInt64} {task : Task} {out : ControlState × Task} (h : Proceeds seed s task out) :
    Spawns s out.1 := by
  cases h with
  | leaves _ hs | joined _ _ hs | foundRunning _ _ hs | foundStopped _ _ hs | stores _ hs | clears hs | writes _ hs
  | restores _ hs | inserts _ _ hs | imports _ hs | changes _ hs => exact hs.spawns rfl (List.Subset.refl _) rfl
  | disables | releases | removes | abandonsStart | abandonsRestart | abandonsCreate => exact .cancels rfl rfl rfl
  | spawns | respawns | createSpawns => exact ⟨rfl, List.Subset.refl _, .inr ⟨_, rfl⟩⟩
  | returned | waits | enables | rereads | bound | clones | clonesRestart | prebound | drained | checks
  | createBound => exact .same rfl rfl rfl

theorem proceed_spawns (seed : UInt64) (task : Task) (bind : Except String SocketAddr) :
    Spawns s (s.proceed seed task bind).1 := (s.proceed_cases seed task bind).spawning

/-- A call does not touch other calls. -/
theorem proceed_calls (seed : UInt64) (task : Task) (bind : Except String SocketAddr) :
    (s.proceed seed task bind).1.calls = s.calls := (s.proceed_spawns seed task bind).calls

/-- The other proxies stay as they are. -/
theorem Proceeds.others {seed : UInt64} {task : Task} {out : ControlState × Task} (h : Proceeds seed s task out)
    {name name' : String} (habout : task.About name) (hne : name' ≠ name) :
    out.1.proxies.get name' = s.proxies.get name' := by
  cases h with
  | leaves _ hs | joined _ _ hs => rw [hs.proxies]
  | returned | waits | enables | rereads | bound | clones | clonesRestart | prebound | drained | checks | createBound
  | spawns | respawns | createSpawns | abandonsStart | abandonsRestart | abandonsCreate => rfl
  | foundRunning _ _ hs | foundStopped _ _ hs | stores _ hs | writes _ hs | restores _ hs | changes _ hs =>
    cases habout
    simp only [hs.proxies, askEnabled_proxies, store_proxies, writeBack_proxies, restore_proxies, applyChange_proxies,
      Registry.get_modify, if_neg hne]
  | disables | releases =>
    cases habout
    simp only [disable_proxies, release_proxies, Registry.get_modify, if_neg hne]
  | removes =>
    cases habout
    simp only [delete_proxies, Registry.get_remove, if_neg hne]
  | inserts _ _ hs | imports _ hs =>
    cases habout
    simp only [hs.proxies, insertRunning_proxies, insertStopped_proxies, Registry.get_insert, if_neg (Ne.symm hne),
      Option.or_none]
  | clears => exact habout.elim

/-- A proxy goes only with its scope, which is cancelled then. -/
theorem Proceeds.names {seed : UInt64} {task : Task} {out : ControlState × Task} (h : Proceeds seed s task out) :
    s.cancelled.length < out.1.cancelled.length ∨ out.1.cancelled = s.cancelled ∧
      ∀ name, (s.proxies.get name).isSome → (out.1.proxies.get name).isSome := by
  cases h with
  | leaves _ hs | joined _ _ hs => exact .inr ⟨hs.cancelled, fun _ => by rw [hs.proxies]; exact id⟩
  | returned | waits | enables | rereads | bound | clones | clonesRestart | prebound | drained | checks | createBound
  | spawns | respawns | createSpawns => exact .inr ⟨rfl, fun _ => id⟩
  | foundRunning _ _ hs | foundStopped _ _ hs | stores _ hs | writes _ hs | restores _ hs | changes _ hs =>
    refine .inr ⟨hs.cancelled, fun name hname => ?_⟩
    simp only [hs.proxies, askEnabled_proxies, store_proxies, writeBack_proxies, restore_proxies, applyChange_proxies,
      Registry.get_modify]
    split
    · rwa [Option.isSome_map]
    · exact hname
  | clears hs =>
    refine .inr ⟨hs.cancelled, fun name hname => ?_⟩
    rw [hs.proxies, clear_proxies, Registry.get_map, Option.isSome_map]
    exact hname
  | disables | releases | removes | abandonsStart | abandonsRestart | abandonsCreate =>
    exact .inl (Nat.lt_succ_self _)
  | inserts _ _ hs | imports _ hs =>
    refine .inr ⟨hs.cancelled, fun name hname => ?_⟩
    simp only [hs.proxies, insertRunning_proxies, insertStopped_proxies, Registry.get_insert, Option.isSome_or, hname,
      Bool.true_or]

theorem step_supervisor_proxies (seed : UInt64) (k : Nat) (turn : Turn) :
    (s.step seed (.supervisor k turn)).proxies = s.proxies := by
  simp only [step]
  split <;> rfl

theorem step_supervisor_calls (seed : UInt64) (k : Nat) (turn : Turn) :
    (s.step seed (.supervisor k turn)).calls = s.calls := by
  simp only [step]
  split <;> rfl

end ControlState

/-! ## A definition to run them on -/

/-- A proxy without faults. -/
def plainSpec : ProxySpec where
  name := "p"
  listen := ⟨.v4 127 0 0 1, 1000⟩
  upstream := ⟨.v4 127 0 0 1, 2000⟩
  upstreamFaults := .empty
  downstreamFaults := .empty
  upstreamPolicy := ProxySpec.policyOf .empty 0
  downstreamPolicy := ProxySpec.policyOf .empty 0
  enabled := false
  maxConnections := none
  connectTimeout := 1000000
  seed := 0

end Eggchaos
