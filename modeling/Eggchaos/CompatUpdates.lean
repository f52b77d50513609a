import Eggchaos.Compat
/-!
# Failed calls of the compatibility adapter

`update` starts or stops the proxy before it reads the addresses of its patch,
and shows the proxy after all of it; `populate` comes to a nameless entry when
those before it have taken effect. So a call that returns an error has changed
nothing exactly if nothing of it took effect before (`failed_call_iff`).
-/

namespace Eggchaos
open Lib

/-- Every proxy is as before, and no scope is cancelled. -/
structure AllSame (s s' : ControlState) : Prop where
  proxies : ∀ name, (s'.proxies.get name).map ManagedProxy.visible = (s.proxies.get name).map ManagedProxy.visible
  cancelled : s'.cancelled = s.cancelled

/-! ## A native await in a call alone -/

theorem advanceAlone_cases (seed : UInt64) (env : UpdateEnv) (s : ControlState) (task : Task) :
    ControlState.Regenerated s (advanceAlone seed env s task).1 ∨
      ControlState.Proceeds seed s task (advanceAlone seed env s task) := by
  unfold advanceAlone
  split
  · unfold ControlState.proceedDown
    split
    · split
      · exact .inl (.refl s)
      · next hget =>
        split
        · next hrun =>
          exact .inr (.foundRunning hget hrun (s.askEnabled _ true |>.enabledDone_regenerated _ _)
            (ControlState.enabledDone_resumed _ _ _))
        · exact .inl (.refl s)
    · split
      · exact .inr (s.proceed_cases seed _ _)
      · exact .inl (s.started_regenerated _ _)
    · split
      · exact .inl (s.started_regenerated _ _)
      · exact .inl (s.started_regenerated _ _)
    · exact .inl (s.started_regenerated _ _)
    · exact .inl (.refl s)
    · exact .inl (.refl s)
    · exact .inr (s.proceed_cases seed _ _)
  · exact .inr (s.proceed_cases seed _ _)

theorem advanceAlone_others (seed : UInt64) (env : UpdateEnv) (s : ControlState) {task : Task} {name name' : String}
    (habout : task.About name) (hne : name' ≠ name) :
    (advanceAlone seed env s task).1.proxies.get name' = s.proxies.get name' := by
  rcases advanceAlone_cases seed env s task with hsame | hproceeds
  · rw [hsame.proxies]
  · exact hproceeds.others s habout hne

/-! ## `set_enabled` -/

/-- The patch of `set_enabled`. -/
def lifecycle (enabled : Option Bool) : ProxyPatch where
  listen := none
  upstream := none
  enabled := enabled
  maxConnections := none
  connectTimeoutMs := none

section
variable (env : UpdateEnv) (name : String) (enabled : Bool) (entry : ManagedProxy) (cancelled : List Nat)

/-- Where a `set_enabled` can be. -/
def EnablePhase (s : ControlState) : Task → Prop
  | .enabling name' patch' => name' = name ∧ patch' = none ∧ enabled = true ∧ Untouched name entry cancelled s
  | .disabling name' patch' => name' = name ∧ patch' = none ∧ enabled = false ∧ Untouched name entry cancelled s
  | .binding _ caller =>
    caller = .setEnabled name none ∧ enabled = true ∧ entry.running = false ∧ env.down = false ∧
      Untouched name entry cancelled s
  | .spawning _ caller | .storing _ _ caller =>
    caller = .setEnabled name none ∧ enabled = true ∧ entry.running = false ∧ env.down = false ∧ env.listen.isOk ∧
      Untouched name entry cancelled s
  | .stopping name' _ patch' =>
    name' = name ∧ patch' = none ∧ enabled = false ∧ entry.running = true ∧
      ∃ entry', s.proxies.get name = some entry' ∧ entry'.running = false
  | .returned (.error _) =>
    enabled = true ∧ entry.running = false ∧ Untouched name entry cancelled s ∧ ¬ env.Flips (lifecycle (some enabled)) entry
  | .returned (.ok _) =>
    (Untouched name entry cancelled s ∧ entry.running = enabled) ∨
      (env.Flips (lifecycle (some enabled)) entry ∧ ∃ base, s.proxies.get name = some base ∧
        base.running ≠ entry.running ∧ (base.running = true → env.down = false))
  | _ => False

variable {env name enabled entry cancelled} {s : ControlState} {task : Task} {seed : UInt64}

theorem EnablePhase.about (h : EnablePhase env name enabled entry cancelled s task) : task.About name := by
  cases task with
  | enabling | disabling | stopping => exact h.1
  | binding _ caller | spawning _ caller | storing _ _ caller =>
    obtain ⟨rfl, -⟩ := h
    rfl
  | returned result => trivial
  | _ => exact h.elim

theorem not_flips_of_running (hrun : entry.running = enabled) : ¬ env.Flips (lifecycle (some enabled)) entry := by
  rintro (⟨hoff, hon⟩ | ⟨hon, hoff, -⟩)
  · cases hoff
    rw [hon] at hrun
    cases hrun
  · cases hon
    rw [hoff] at hrun
    cases hrun

theorem start_enable (seed : UInt64) (enabled : Bool) (huntouched : Untouched name entry cancelled s) :
    EnablePhase env name enabled entry cancelled (s.start seed (.setEnabled name enabled)).1
      (s.start seed (.setEnabled name enabled)).2 := by
  cases enabled with
  | true => exact ⟨rfl, rfl, rfl, huntouched⟩
  | false => exact ⟨rfl, rfl, rfl, huntouched⟩

/-- One await of `set_enabled`. -/
theorem advance_enable (h : EnablePhase env name enabled entry cancelled s task) :
    EnablePhase env name enabled entry cancelled (advanceAlone seed env s task).1 (advanceAlone seed env s task).2 := by
  cases task with
  | enabling name' patch' =>
    obtain ⟨rfl, rfl, rfl, huntouched⟩ := h
    obtain ⟨entry', hget, -⟩ := huntouched.entry
    obtain ⟨-, hrunning⟩ := huntouched.spec hget
    unfold advanceAlone
    cases hdown : env.down with
    | true =>
      simp only [if_true, ControlState.proceedDown, hget]
      split
      · next hrun => exact .inl ⟨huntouched.asked true, hrunning ▸ hrun⟩
      · next hrun =>
        refine ⟨rfl, by simpa [hrunning] using hrun, huntouched, ?_⟩
        rintro (⟨hoff, -⟩ | ⟨-, -, hup, -⟩)
        · cases hoff
        · exact Bool.false_ne_true (hup.symm.trans hdown)
    | false =>
      simp only [Bool.false_eq_true, if_false, ControlState.proceed, hget]
      split
      · next hrun => exact .inl ⟨huntouched.asked true, hrunning ▸ hrun⟩
      · next hrun => exact ⟨rfl, rfl, by simpa [hrunning] using hrun, hdown, huntouched⟩
  | disabling name' patch' =>
    obtain ⟨rfl, rfl, rfl, huntouched⟩ := h
    have hgo (bind : Except String SocketAddr) : EnablePhase env name' false entry cancelled
        (s.proceed seed (.disabling name' none) bind).1 (s.proceed seed (.disabling name' none) bind).2 := by
      obtain ⟨entry', hget, -⟩ := huntouched.entry
      obtain ⟨-, hrunning⟩ := huntouched.spec hget
      simp only [ControlState.proceed, hget]
      split
      · next hrun => exact .inl ⟨huntouched.asked false, by simpa [hrunning] using hrun⟩
      · next hrun =>
        refine ⟨rfl, rfl, rfl, by simpa [hrunning] using hrun, entry'.disabled s.tokens, ?_, rfl⟩
        rw [ControlState.disable_proxies, Registry.get_modify, if_pos rfl, hget]
        rfl
    unfold advanceAlone
    split
    · exact hgo env.listen
    · exact hgo env.listen
  | binding listen caller =>
    obtain ⟨rfl, rfl, hstopped, hup, huntouched⟩ := h
    simp only [advanceAlone, hup, Bool.false_eq_true, if_false, ControlState.proceed, UpdateEnv.bind]
    split
    · next reason hbind =>
      refine ⟨rfl, hstopped, huntouched, ?_⟩
      rintro (⟨hoff, -⟩ | ⟨-, -, -, hbound⟩)
      · cases hoff
      · rw [hbind] at hbound
        cases hbound
    · next bound hbind => exact ⟨rfl, rfl, hstopped, hup, by rw [hbind]; rfl, huntouched⟩
  | spawning bound caller =>
    obtain ⟨rfl, rfl, hstopped, hup, hbound, huntouched⟩ := h
    simp only [advanceAlone, hup, Bool.false_eq_true, if_false, ControlState.proceed]
    exact ⟨rfl, rfl, hstopped, hup, hbound, huntouched.same rfl rfl⟩
  | storing bound k caller =>
    obtain ⟨rfl, rfl, hstopped, hup, hbound, huntouched⟩ := h
    obtain ⟨entry', hget, -⟩ := huntouched.entry
    simp only [advanceAlone, hup, Bool.false_eq_true, if_false, ControlState.proceed, Caller.name, hget]
    refine .inr ⟨.inr ⟨rfl, hstopped, hup, hbound⟩, entry'.stored bound (s.tokenOf k) k, ?_, ?_, fun _ => hup⟩
    · show (s.store name bound k).proxies.get name = _
      rw [ControlState.store_proxies, Registry.get_modify, if_pos rfl, hget]
      rfl
    · simp [ManagedProxy.stored, hstopped]
  | stopping name' done patch' =>
    obtain ⟨rfl, rfl, rfl, hrunning, base, hget, hstopped⟩ := h
    have hgo (bind : Except String SocketAddr) : EnablePhase env name' false entry cancelled
        (s.proceed seed (.stopping name' done none) bind).1 (s.proceed seed (.stopping name' done none) bind).2 := by
      simp only [ControlState.proceed]
      split
      · refine .inr ⟨.inl ⟨rfl, hrunning⟩, base, hget, ?_, ?_⟩
        · simp [hstopped, hrunning]
        · intro hrun
          rw [hstopped] at hrun
          cases hrun
      · exact ⟨rfl, rfl, rfl, hrunning, base, hget, hstopped⟩
    unfold advanceAlone
    split
    · exact hgo env.listen
    · exact hgo env.listen
  | returned result =>
    unfold advanceAlone
    split
    · exact h
    · exact h
  | _ => exact h.elim

end

/-! ## `update_proxy` with addresses only -/

/-- A patch of the addresses. -/
structure ProxyPatch.OnlyAddresses (native : ProxyPatch) : Prop where
  enabled : native.enabled = none
  maxConnections : native.maxConnections = none
  connectTimeoutMs : native.connectTimeoutMs = none

namespace ProxyPatch

variable {native : ProxyPatch} {spec : ProxySpec}

theorem OnlyAddresses.apply (h : native.OnlyAddresses) (spec : ProxySpec) : native.apply spec =
    { spec with listen := native.listen.getD spec.listen, upstream := native.upstream.getD spec.upstream } := by
  rw [ProxyPatch.apply, h.maxConnections, h.connectTimeoutMs]
  rfl

/-- A patch that needs no new listener changes nothing. -/
theorem OnlyAddresses.apply_same (h : native.OnlyAddresses) (hsame : native.restarts spec = false) :
    native.apply spec = spec := by
  rw [h.apply]
  simp only [restarts, Bool.or_eq_false_iff] at hsame
  obtain ⟨hlisten, hupstream⟩ := hsame
  have hl : native.listen.getD spec.listen = spec.listen := by
    cases hgiven : native.listen with
    | none => rfl
    | some listen => simpa [hgiven] using hlisten
  have hu : native.upstream.getD spec.upstream = spec.upstream := by
    cases hgiven : native.upstream with
    | none => rfl
    | some upstream => simpa [hgiven] using hupstream
  rw [hl, hu]

theorem OnlyAddresses.apply_moved (h : native.OnlyAddresses) (hmoved : native.restarts spec = true) :
    ((native.apply spec).listen, (native.apply spec).upstream) ≠ (spec.listen, spec.upstream) := by
  rw [h.apply]
  simp only [restarts, Bool.or_eq_true] at hmoved
  rcases hmoved with hlisten | hupstream
  · cases hgiven : native.listen with
    | none => simp [hgiven] at hlisten
    | some listen =>
      intro heq
      simp only [hgiven, Option.any_some, decide_eq_true_eq] at hlisten
      exact hlisten (congrArg Prod.fst heq)
  · cases hgiven : native.upstream with
    | none => simp [hgiven] at hupstream
    | some upstream =>
      intro heq
      simp only [hgiven, Option.any_some, decide_eq_true_eq] at hupstream
      exact hupstream (congrArg Prod.snd heq)

end ProxyPatch

/-- The patch passes the checks of the proxy, changes an address, and gets a
listener if it needs one. -/
structure UpdateEnv.Moves (env : UpdateEnv) (native : ProxyPatch) (base : ManagedProxy) : Prop where
  valid : (native.apply base.spec).validate = .ok ()
  restarts : native.restarts base.spec = true
  bound : base.running = true → env.replacement.isOk = true

section
variable (env : UpdateEnv) (name : String) (native : ProxyPatch) (base : ManagedProxy) (cancelled : List Nat)

/-- What a finished `update_proxy` leaves: all as it was, or a proxy with another
address, or one that a restart has stopped while the service shuts down. -/
def PatchResult (s : ControlState) (failed : Bool) : Prop :=
  (Untouched name base cancelled s ∧ ¬ env.Moves native base) ∨
    (env.Moves native base ∧ ∃ entry', s.proxies.get name = some entry' ∧
      if failed then env.down = true ∧ base.running = true ∧ entry'.running = false
      else entry'.running = base.running ∧
        (entry'.spec.listen, entry'.spec.upstream) ≠ (base.spec.listen, base.spec.upstream))

/-- Where such an `update_proxy` can be. -/
def PatchPhase (s : ControlState) : Task → Prop
  | .cloning name' p => name' = name ∧ p.patch = native ∧ Untouched name base cancelled s
  | .writingBack name' p spec =>
    name' = name ∧ p.patch = native ∧ spec = native.apply base.spec ∧ spec.validate = .ok () ∧
      (native.restarts base.spec = true → base.running = false) ∧ Untouched name base cancelled s
  | .prebinding name' p spec =>
    name' = name ∧ p.patch = native ∧ spec = native.apply base.spec ∧ native.Restarts base ∧ Untouched name base cancelled s
  | .releasing name' p spec _ =>
    name' = name ∧ p.patch = native ∧ spec = native.apply base.spec ∧ native.Restarts base ∧ env.replacement.isOk ∧
      Untouched name base cancelled s
  | .draining name' p spec _ _ | .respawning name' p spec _ =>
    name' = name ∧ p.patch = native ∧ spec = native.apply base.spec ∧ native.Restarts base ∧ env.replacement.isOk ∧
      ∃ entry', s.proxies.get name = some entry' ∧ entry'.running = false
  | .restoring name' p spec _ _ =>
    name' = name ∧ p.patch = native ∧ spec = native.apply base.spec ∧ native.Restarts base ∧ env.replacement.isOk ∧
      ∃ entry', s.proxies.get name = some entry'
  | .returned (.error _) => PatchResult env name native base cancelled s true
  | .returned (.ok _) => PatchResult env name native base cancelled s false
  | _ => False

variable {env name native base cancelled} {s : ControlState} {task : Task} {seed : UInt64}

theorem PatchPhase.about (h : PatchPhase env name native base cancelled s task) : task.About name := by
  cases task with
  | cloning | writingBack | prebinding | releasing | draining | respawning | restoring => exact h.1
  | returned result => trivial
  | _ => exact h.elim

theorem start_patch (seed : UInt64) (h : native.OnlyAddresses) (huntouched : Untouched name base cancelled s) :
    PatchPhase env name native base cancelled (s.start seed (.update name native)).1
      (s.start seed (.update name native)).2 := by
  simp only [ControlState.start, h.enabled, ControlState.patchFields, h.connectTimeoutMs, reduceCtorEq, if_false]
  exact ⟨rfl, rfl, huntouched⟩

theorem moves_of_restarts (h : native.Restarts base) (hbound : env.replacement.isOk = true) : env.Moves native base :=
  ⟨h.valid, h.restarts, fun _ => hbound⟩

/-- `update_proxy` comes to its end. -/
theorem updated_patch {p : Patching} (h : PatchResult env name native base cancelled s false) :
    PatchPhase env name native base cancelled (s.updated p).1 (s.updated p).2 := by
  unfold ControlState.updated
  split <;> exact h

/-- One await, where no supervisor is spawned for a service that shuts down. -/
theorem proceed_patch (hnative : native.OnlyAddresses) (h : PatchPhase env name native base cancelled s task)
    (hdown : ∀ name p spec bound, task = .respawning name p spec bound → env.down = false) :
    PatchPhase env name native base cancelled (s.proceed seed task (env.bind task)).1
      (s.proceed seed task (env.bind task)).2 := by
  cases task with
  | cloning name' p =>
    obtain ⟨rfl, rfl, huntouched⟩ := h
    obtain ⟨entry, hget, -⟩ := huntouched.entry
    obtain ⟨hspec, hrunning⟩ := huntouched.spec hget
    simp only [ControlState.proceed, hget, hspec]
    split
    · next e hinvalid =>
      refine .inl ⟨huntouched, fun hmoves => ?_⟩
      rw [hmoves.valid] at hinvalid
      cases hinvalid
    · next hvalid =>
      split
      · next hkeeps =>
        refine ⟨rfl, rfl, rfl, hvalid, fun hrestarts => ?_, huntouched⟩
        simpa [hrestarts, hrunning] using hkeeps
      · next hrestart =>
        simp only [hrunning, Bool.or_eq_true, Bool.not_eq_true', not_or, Bool.not_eq_false] at hrestart
        have htimeout : p.patch.connectTimeoutMs ≠ some 0 := by
          rw [hnative.connectTimeoutMs]
          exact Option.some_ne_none 0 |>.symm
        exact ⟨rfl, rfl, rfl, ⟨htimeout, hvalid, hrestart.1, hrestart.2⟩, huntouched⟩
  | writingBack name' p spec =>
    obtain ⟨rfl, rfl, rfl, hvalid, hstopped, huntouched⟩ := h
    obtain ⟨entry, hget, hsame⟩ := huntouched.entry
    obtain ⟨hspec, hrunning⟩ := huntouched.spec hget
    simp only [ControlState.proceed, hget]
    refine updated_patch ?_
    have hwritten : (s.writeBack name' p.patch (p.patch.apply base.spec)).proxies.get name' =
        some (entry.written p.patch (p.patch.apply base.spec)) := by
      rw [ControlState.writeBack_proxies, Registry.get_modify, if_pos rfl, hget]
      rfl
    cases hrestarts : p.patch.restarts base.spec with
    | false =>
      refine .inl ⟨⟨⟨_, hwritten, ?_⟩, huntouched.2⟩, fun hmoves => ?_⟩
      · rw [← hsame, hnative.apply_same hrestarts, ManagedProxy.visible, ManagedProxy.written, ← hspec]
        rfl
      · exact Bool.false_ne_true (hrestarts.symm.trans hmoves.restarts)
    | true =>
      refine .inr ⟨⟨hvalid, hrestarts, fun hrun => ?_⟩, _, hwritten, hrunning, ?_⟩
      · rw [hstopped hrestarts] at hrun
        cases hrun
      · exact hnative.apply_moved hrestarts
  | prebinding name' p spec =>
    obtain ⟨rfl, rfl, rfl, hrestarts, huntouched⟩ := h
    simp only [ControlState.proceed, UpdateEnv.bind]
    split
    · next reason hbind =>
      refine .inl ⟨huntouched, fun hmoves => ?_⟩
      have hbound := hmoves.bound hrestarts.running
      rw [hbind] at hbound
      cases hbound
    · next bound hbind => exact ⟨rfl, rfl, rfl, hrestarts, by rw [hbind]; rfl, huntouched⟩
  | releasing name' p spec bound =>
    obtain ⟨rfl, rfl, rfl, hrestarts, hbound, huntouched⟩ := h
    obtain ⟨entry, hget, -⟩ := huntouched.entry
    obtain ⟨-, hrunning⟩ := huntouched.spec hget
    simp only [ControlState.proceed, hget, hrunning, hrestarts.running, Bool.not_true, Bool.false_eq_true, if_false]
    refine ⟨rfl, rfl, rfl, hrestarts, hbound, entry.released s.tokens, ?_, rfl⟩
    rw [ControlState.release_proxies, Registry.get_modify, if_pos rfl, hget]
    rfl
  | draining name' p spec bound done =>
    simp only [ControlState.proceed]
    split
    · exact h
    · exact h
  | respawning name' p spec bound =>
    obtain ⟨rfl, rfl, rfl, hrestarts, hbound, entry', hget, -⟩ := h
    exact ⟨rfl, rfl, rfl, hrestarts, hbound, entry', hget⟩
  | restoring name' p spec bound k =>
    obtain ⟨rfl, rfl, rfl, hrestarts, hbound, entry', hget⟩ := h
    simp only [ControlState.proceed, hget]
    refine updated_patch (.inr ⟨moves_of_restarts hrestarts hbound,
      entry'.restarted p.patch (p.patch.apply base.spec) bound (s.tokenOf k) k, ?_, ?_, ?_⟩)
    · rw [ControlState.restore_proxies, Registry.get_modify, if_pos rfl, hget]
      rfl
    · exact hrestarts.running.symm
    · exact hnative.apply_moved hrestarts.restarts
  | returned result => exact h
  | _ => exact h.elim

theorem advance_patch (hnative : native.OnlyAddresses) (h : PatchPhase env name native base cancelled s task) :
    PatchPhase env name native base cancelled (advanceAlone seed env s task).1 (advanceAlone seed env s task).2 := by
  unfold advanceAlone
  split
  · next hdown =>
    cases task with
    | respawning name' p spec bound =>
      obtain ⟨rfl, rfl, rfl, hrestarts, hbound, entry', hget, hstopped⟩ := h
      exact .inr ⟨moves_of_restarts hrestarts hbound, entry', hget, hdown, hrestarts.running, hstopped⟩
    | enabling | rereading | binding | spawning | createSpawning => exact h.elim
    | _ =>
      refine proceed_patch hnative h ?_
      intro _ _ _ _ heq
      cases heq
  · next hup =>
    refine proceed_patch hnative h ?_
    intro _ _ _ _ _
    simpa using hup

end

/-! ## `update` -/

/-- Something of the update takes effect: it starts or stops the proxy, or it comes
to its addresses and moves the proxy. -/
def ProxyUpdate.TakesEffect (parse : String → Except String SocketAddr) (env : UpdateEnv) (patch : ProxyUpdate)
    (entry : ManagedProxy) : Prop :=
  env.Flips (lifecycle patch.enabled) entry ∨
    ¬(patch.enabled = some true ∧ entry.running = false) ∧
      ∃ native, patch.addresses parse = .ok native ∧ env.Moves native entry

section
variable (parse : String → Except String SocketAddr) (env : UpdateEnv) (name : String) (patch : ProxyUpdate)
  (entry : ManagedProxy) (cancelled : List Nat)

/-- The `enabled` part is done and has left `base`. -/
def EnabledPart (base : ManagedProxy) (cancelled' : List Nat) : Prop :=
  (base = entry ∧ cancelled' = cancelled ∧ ¬ env.Flips (lifecycle patch.enabled) entry ∧
      ¬(patch.enabled = some true ∧ entry.running = false)) ∨
    (env.Flips (lifecycle patch.enabled) entry ∧ base.running ≠ entry.running ∧ (base.running = true → env.down = false))

/-- The proxy is as it was, or it shows what has taken effect. -/
def UpdateOutcome (s : ControlState) : Prop :=
  (Untouched name entry cancelled s ∧ ¬ patch.TakesEffect parse env entry) ∨
    (patch.TakesEffect parse env entry ∧ ∃ entry', s.proxies.get name = some entry' ∧
      (entry'.running ≠ entry.running ∨
        (entry'.spec.listen, entry'.spec.upstream) ≠ (entry.spec.listen, entry.spec.upstream)))

/-- Where an `update` can be. -/
def CompatUpdatePhase (s : ControlState) : ProxyUpdateTask → Prop
  | .viewing patch' => patch' = patch ∧ Untouched name entry cancelled s
  | .enabling patch' task =>
    patch' = patch ∧ ∃ enabled, patch.enabled = some enabled ∧ EnablePhase env name enabled entry cancelled s task
  | .patching task =>
    ∃ native base cancelled', patch.addresses parse = .ok native ∧ EnabledPart env patch entry cancelled base cancelled' ∧
      PatchPhase env name native base cancelled' s task
  | .rendering | .done (.error _) => UpdateOutcome parse env name patch entry cancelled s
  | .done (.ok _) => True

variable {parse env name patch entry cancelled} {base : ManagedProxy} {cancelled' : List Nat} {s : ControlState}
  {native : ProxyPatch} {seed : UInt64} {profile : CompatProfile}

theorem addresses_only (h : patch.addresses parse = .ok native) : native.OnlyAddresses := by
  obtain ⟨listen, -, h⟩ := except_bind_ok h
  obtain ⟨upstream, -, h⟩ := except_bind_ok h
  cases h
  exact ⟨rfl, rfl, rfl⟩

/-- Without addresses nothing moves. -/
theorem not_moves_of_none (hlisten : patch.listen = none) (hupstream : patch.upstream = none)
    (h : patch.addresses parse = .ok native) : ¬ env.Moves native base := by
  unfold ProxyUpdate.addresses at h
  rw [hlisten, hupstream] at h
  cases h
  exact fun hmoves => Bool.false_ne_true hmoves.restarts

/-- The update goes no further than its `enabled` part. -/
theorem EnabledPart.outcome (h : EnabledPart env patch entry cancelled base cancelled')
    (huntouched : Untouched name base cancelled' s)
    (hstays : ∀ native, patch.addresses parse = .ok native → ¬ env.Moves native entry) :
    UpdateOutcome parse env name patch entry cancelled s := by
  rcases h with ⟨rfl, rfl, hkept, -⟩ | ⟨hflips, hrunning, -⟩
  · refine .inl ⟨huntouched, ?_⟩
    rintro (hflips | ⟨-, native, hnative, hmoves⟩)
    · exact hkept hflips
    · exact hstays native hnative hmoves
  · obtain ⟨entry', hget, -⟩ := huntouched.entry
    exact .inr ⟨.inl hflips, entry', hget, .inl ((huntouched.spec hget).2 ▸ hrunning)⟩

/-- The native update has come to its end. -/
theorem PatchResult.outcome {failed : Bool} (h : PatchResult env name native base cancelled' s failed)
    (hnative : patch.addresses parse = .ok native) (hpart : EnabledPart env patch entry cancelled base cancelled') :
    UpdateOutcome parse env name patch entry cancelled s := by
  rcases hpart with ⟨rfl, rfl, hkept, hgoes⟩ | ⟨hflips, hrunning, hup⟩
  · rcases h with ⟨huntouched, hstays⟩ | ⟨hmoves, entry', hget, hchanged⟩
    · refine .inl ⟨huntouched, ?_⟩
      rintro (hflips | ⟨-, native', hnative', hmoves⟩)
      · exact hkept hflips
      · rw [hnative] at hnative'
        cases hnative'
        exact hstays hmoves
    · refine .inr ⟨.inr ⟨hgoes, native, hnative, hmoves⟩, entry', hget, ?_⟩
      cases failed with
      | true =>
        obtain ⟨-, hrun, hstopped⟩ := hchanged
        exact .inl (by rw [hstopped, hrun]; exact Bool.false_ne_true)
      | false => exact .inr hchanged.2
  · rcases h with ⟨huntouched, -⟩ | ⟨-, entry', hget, hchanged⟩
    · obtain ⟨entry', hget, -⟩ := huntouched.entry
      exact .inr ⟨.inl hflips, entry', hget, .inl ((huntouched.spec hget).2 ▸ hrunning)⟩
    · refine .inr ⟨.inl hflips, entry', hget, ?_⟩
      cases failed with
      | true => exact absurd ((hup hchanged.2.1).symm.trans hchanged.1) Bool.false_ne_true
      | false => exact .inl (hchanged.1 ▸ hrunning)

theorem readAddresses_phase (hpart : EnabledPart env patch entry cancelled base cancelled')
    (huntouched : Untouched name base cancelled' s) :
    CompatUpdatePhase parse env name patch entry cancelled (patch.readAddresses seed parse name s).1
      (patch.readAddresses seed parse name s).2 := by
  unfold ProxyUpdate.readAddresses
  split
  · split
    · next e herror =>
      refine hpart.outcome huntouched fun native hnative => ?_
      rw [hnative] at herror
      cases herror
    · next native hnative =>
      exact ⟨native, base, cancelled', hnative, hpart, start_patch seed (addresses_only hnative) huntouched⟩
  · next hnone =>
    simp only [Bool.or_eq_true, Option.isSome_iff_ne_none, not_or, not_not] at hnone
    exact hpart.outcome huntouched fun native hnative => not_moves_of_none hnone.1 hnone.2 hnative

/-- One await of `update`. -/
theorem proceed_update {task : ProxyUpdateTask} (h : CompatUpdatePhase parse env name patch entry cancelled s task) :
    CompatUpdatePhase parse env name patch entry cancelled (task.proceed seed parse profile env name s).1
      (task.proceed seed parse profile env name s).2 := by
  cases task with
  | viewing patch' =>
    obtain ⟨rfl, huntouched⟩ := h
    obtain ⟨entry', hget, -⟩ := huntouched.entry
    simp only [ProxyUpdateTask.proceed, hget]
    split
    · next hnone =>
      refine readAddresses_phase (.inl ⟨rfl, rfl, ?_, ?_⟩) huntouched
      · rw [hnone]
        rintro (⟨hoff, -⟩ | ⟨hon, -⟩)
        · cases hoff
        · cases hon
      · rintro ⟨hon, -⟩
        rw [hnone] at hon
        cases hon
    · next enabled henabled => exact ⟨rfl, enabled, henabled, start_enable seed enabled huntouched⟩
  | enabling patch' native =>
    obtain ⟨rfl, enabled, henabled, hphase⟩ := h
    unfold ProxyUpdateTask.proceed
    dsimp only
    split
    · next e =>
      obtain ⟨rfl, hstopped, huntouched, hkept⟩ := hphase
      refine .inl ⟨huntouched, ?_⟩
      rintro (hflips | ⟨hgoes, -⟩)
      · exact hkept (henabled ▸ hflips)
      · exact hgoes ⟨henabled, hstopped⟩
    · next answer =>
      rcases hphase with ⟨huntouched, hrunning⟩ | ⟨hflips, base, hget, hne, hup⟩
      · refine readAddresses_phase (.inl ⟨rfl, rfl, ?_, ?_⟩) huntouched
        · rw [henabled]
          exact not_flips_of_running hrunning
        · rintro ⟨hon, hstopped⟩
          rw [henabled, Option.some.injEq] at hon
          rw [hrunning, hon] at hstopped
          cases hstopped
      · exact readAddresses_phase (.inr ⟨henabled ▸ hflips, hne, hup⟩) (.here hget)
    · exact ⟨rfl, enabled, henabled, advance_enable hphase⟩
  | patching native =>
    obtain ⟨patched, base, cancelled', hnative, hpart, hphase⟩ := h
    unfold ProxyUpdateTask.proceed
    dsimp only
    split
    · exact PatchResult.outcome hphase hnative hpart
    · exact PatchResult.outcome hphase hnative hpart
    · exact ⟨patched, base, cancelled', hnative, hpart, advance_patch (addresses_only hnative) hphase⟩
  | rendering =>
    have hpresent : ∃ entry', s.proxies.get name = some entry' := by
      rcases h with ⟨huntouched, -⟩ | ⟨-, entry', hget, -⟩
      · obtain ⟨entry', hget, -⟩ := huntouched.entry
        exact ⟨entry', hget⟩
      · exact ⟨entry', hget⟩
    obtain ⟨entry', hget⟩ := hpresent
    simp only [ProxyUpdateTask.proceed, hget]
    cases proxyJson entry' profile with
    | error e => exact h
    | ok object => trivial
  | done result => exact h

/-- An `update` does not touch other proxies. -/
theorem proceed_update_others {task : ProxyUpdateTask} (h : CompatUpdatePhase parse env name patch entry cancelled s task)
    {name' : String} (hne : name' ≠ name) :
    (task.proceed seed parse profile env name s).1.proxies.get name' = s.proxies.get name' := by
  have hread (patch : ProxyUpdate) : (patch.readAddresses seed parse name s).1.proxies = s.proxies := by
    unfold ProxyUpdate.readAddresses
    split
    · split
      · rfl
      · exact (s.start_regenerated seed _).proxies
    · rfl
  cases task with
  | viewing patch' =>
    unfold ProxyUpdateTask.proceed
    dsimp only
    split
    · rfl
    · split
      · rw [hread]
      · rw [(s.start_regenerated seed _).proxies]
  | enabling patch' native =>
    obtain ⟨-, enabled, -, hphase⟩ := h
    unfold ProxyUpdateTask.proceed
    dsimp only
    split
    · rfl
    · rw [hread]
    · exact advanceAlone_others seed env s hphase.about hne
  | patching native =>
    obtain ⟨patched, base, cancelled', -, -, hphase⟩ := h
    unfold ProxyUpdateTask.proceed
    dsimp only
    split
    · rfl
    · rfl
    · exact advanceAlone_others seed env s hphase.about hne
  | rendering =>
    unfold ProxyUpdateTask.proceed
    dsimp only
    split <;> rfl
  | done result => rfl

/-- What an `update` keeps on its way. -/
structure UpdateKeeps (parse : String → Except String SocketAddr) (env : UpdateEnv) (name : String) (patch : ProxyUpdate)
    (entry : ManagedProxy) (s₀ : ControlState) (x : ControlState × ProxyUpdateTask) : Prop where
  phase : CompatUpdatePhase parse env name patch entry s₀.cancelled x.1 x.2
  others : ∀ name', name' ≠ name → x.1.proxies.get name' = s₀.proxies.get name'

theorem UpdateKeeps.step {s₀ : ControlState} {x : ControlState × ProxyUpdateTask}
    (h : UpdateKeeps parse env name patch entry s₀ x) (o : AloneOp) :
    UpdateKeeps parse env name patch entry s₀ (ProxyUpdateTask.step seed parse profile env name x o) := by
  cases o with
  | advance =>
    exact ⟨proceed_update h.phase, fun name' hne => (proceed_update_others h.phase hne).trans (h.others name' hne)⟩
  | supervisor k turn =>
    simp only [ProxyUpdateTask.step, ControlState.step]
    split
    · exact h
    · exact ⟨h.phase, h.others⟩

/-- The proxy of an `update` is not there: nothing happens. -/
structure UpdateMisses (patch : ProxyUpdate) (s₀ : ControlState) (x : ControlState × ProxyUpdateTask) : Prop where
  proxies : x.1.proxies = s₀.proxies
  cancelled : x.1.cancelled = s₀.cancelled
  task : x.2 = .viewing patch ∨ ∃ result, x.2 = .done result

theorem UpdateMisses.step {s₀ : ControlState} {x : ControlState × ProxyUpdateTask} (hnone : s₀.proxies.get name = none)
    (h : UpdateMisses patch s₀ x) (o : AloneOp) :
    UpdateMisses patch s₀ (ProxyUpdateTask.step seed parse profile env name x o) := by
  obtain ⟨s, task⟩ := x
  cases o with
  | advance =>
    have hget : s.proxies.get name = none := (congrArg (Registry.get · name) h.proxies).trans hnone
    rcases h.task with rfl | ⟨result, rfl⟩
    · simp only [ProxyUpdateTask.step, ProxyUpdateTask.proceed, hget]
      exact ⟨h.proxies, h.cancelled, .inr ⟨_, rfl⟩⟩
    · exact ⟨h.proxies, h.cancelled, .inr ⟨result, rfl⟩⟩
  | supervisor k turn =>
    simp only [ProxyUpdateTask.step, ControlState.step]
    split
    · exact h
    · exact ⟨h.proxies, h.cancelled, h.task⟩

/-- An update that fails has changed nothing exactly if nothing of it has taken
effect. -/
theorem failed_update_same (ops : List AloneOp) {s' : ControlState} {e : CompatError}
    (h : updateProxyAlone seed parse profile env name s patch ops = (s', .done (.error e))) :
    AllSame s s' ↔ ∀ entry, s.proxies.get name = some entry → ¬ patch.TakesEffect parse env entry := by
  cases hget : s.proxies.get name with
  | none =>
    have hstart : UpdateMisses patch s (s, .viewing patch) := ⟨rfl, rfl, .inl rfl⟩
    have hmisses : UpdateMisses patch s (updateProxyAlone seed parse profile env name s patch ops) :=
      run_inv (UpdateMisses patch s) (fun _ o hx => hx.step hget o) hstart ops
    rw [h] at hmisses
    refine iff_of_true ⟨fun name' => by rw [hmisses.proxies], hmisses.cancelled⟩ ?_
    intro entry hentry
    cases hentry
  | some entry =>
    have hstart : UpdateKeeps parse env name patch entry s (s, .viewing patch) := ⟨⟨rfl, .here hget⟩, fun _ _ => rfl⟩
    have hkeeps : UpdateKeeps parse env name patch entry s (updateProxyAlone seed parse profile env name s patch ops) :=
      run_inv (UpdateKeeps parse env name patch entry s) (fun _ o hx => hx.step o) hstart ops
    rw [h] at hkeeps
    have houtcome : UpdateOutcome parse env name patch entry s.cancelled s' := hkeeps.phase
    rcases houtcome with ⟨huntouched, hstays⟩ | ⟨htakes, entry', hget', hchanged⟩
    · refine iff_of_true ⟨fun name' => ?_, huntouched.2⟩ ?_
      · by_cases hname : name' = name
        · obtain ⟨entry', hget', hsame⟩ := huntouched.entry
          rw [hname, hget, hget', Option.map_some, Option.map_some, hsame]
        · exact congrArg (Option.map ManagedProxy.visible) (hkeeps.others name' hname)
      · intro entry'' hentry
        cases hentry
        exact hstays
    · refine iff_of_false (fun hsame => ?_) fun hstays => hstays entry rfl htakes
      have hvisible := hsame.proxies name
      rw [hget, hget', Option.map_some, Option.map_some, Option.some.injEq] at hvisible
      simp only [ManagedProxy.visible, Prod.mk.injEq] at hvisible
      obtain ⟨hspec, hrunning, -⟩ := hvisible
      rcases hchanged with hne | hne
      · exact hne hrunning
      · rw [hspec] at hne
        exact hne rfl

end

/-! ## `populate` -/

/-- Nothing has happened. -/
structure SameRegistry (s₀ s : ControlState) : Prop where
  proxies : s.proxies = s₀.proxies
  cancelled : s.cancelled = s₀.cancelled

/-- A scope has been cancelled, or a proxy has come. -/
structure Changed (s₀ s : ControlState) : Prop where
  grows : s₀.cancelled.length ≤ s.cancelled.length
  changes : s₀.cancelled.length < s.cancelled.length ∨
    ∃ name, s₀.proxies.get name = none ∧ (s.proxies.get name).isSome

section
variable {s₀ s : ControlState} {seed : UInt64}

theorem SameRegistry.allSame (h : SameRegistry s₀ s) : AllSame s₀ s :=
  ⟨fun name => by rw [h.proxies], h.cancelled⟩

theorem Changed.not_allSame (h : Changed s₀ s) : ¬ AllSame s₀ s := by
  intro hsame
  rcases h.changes with hlt | ⟨name, hnone, hsome⟩
  · rw [hsame.cancelled] at hlt
    exact Nat.lt_irrefl _ hlt
  · have hvisible := hsame.proxies name
    rw [hnone, Option.map_none, Option.map_eq_none_iff] at hvisible
    rw [hvisible] at hsome
    cases hsome

theorem SameRegistry.congr {s' : ControlState} (h : SameRegistry s₀ s) (hproxies : s'.proxies = s.proxies)
    (hcancelled : s'.cancelled = s.cancelled) : SameRegistry s₀ s' :=
  ⟨hproxies.trans h.proxies, hcancelled.trans h.cancelled⟩

theorem Changed.congr {s' : ControlState} (h : Changed s₀ s) (hproxies : s'.proxies = s.proxies)
    (hcancelled : s'.cancelled = s.cancelled) : Changed s₀ s' where
  grows := hcancelled ▸ h.grows
  changes := by
    rw [hproxies, hcancelled]
    exact h.changes

/-- Nothing undoes a change. -/
theorem Changed.advance (h : Changed s₀ s) (env : UpdateEnv) (task : Task) :
    Changed s₀ (advanceAlone seed env s task).1 := by
  rcases advanceAlone_cases seed env s task with hsame | hproceeds
  · exact h.congr hsame.proxies hsame.cancelled
  · rcases hproceeds.names with hlt | ⟨hcancelled, hnames⟩
    · exact ⟨h.grows.trans hlt.le, .inl (Nat.lt_of_le_of_lt h.grows hlt)⟩
    · refine ⟨hcancelled ▸ h.grows, ?_⟩
      rcases h.changes with hlt | ⟨name, hnone, hsome⟩
      · exact .inl (hcancelled ▸ hlt)
      · exact .inr ⟨name, hnone, hnames name hsome⟩

end

/-- The proxy of an entry can be made: its definition passes the checks and, if it is
to run, there is room, and its bind succeeds. -/
structure PopulateEnv.Creates (env : PopulateEnv) (s : ControlState) (index : Nat) (spec : ProxySpec) : Prop where
  valid : spec.validate = .ok ()
  starts : spec.enabled = true → env.down = false ∧ s.proxies.length < maxStreamProxies ∧ (env.binds index).isOk = true

/-- The definition of an entry. -/
def ProxyInput.definition (input : ProxyInput) (name : String) (listen upstream : SocketAddr) : ProxySpec :=
  { ProxySpec.new name listen upstream with enabled := input.enabled.getD true }

/-- The entry takes effect: it has addresses other than the proxy of its name, or
there is none and it makes one. -/
def ProxyInput.TakesEffect (parse : String → Except String SocketAddr) (env : PopulateEnv) (s : ControlState) (index : Nat)
    (input : ProxyInput) : Prop :=
  ∃ name listen upstream, input.resolveAddrs parse = .ok (name, listen, upstream) ∧
    ((∃ found, s.proxies.get name = some found ∧ ¬(found.spec.listen = listen ∧ found.spec.upstream = upstream)) ∨
      (s.proxies.get name = none ∧ env.Creates s index (input.definition name listen upstream)))

/-- No entry takes effect before the first one that is nameless. -/
def HarmlessEntries (parse : String → Except String SocketAddr) (env : PopulateEnv) (s : ControlState)
    (inputs : List ProxyInput) : Prop :=
  ∀ (k : Nat) (nameless : ProxyInput), inputs[k]? = some nameless → nameless.given = none →
    (∀ j < k, ∀ input, inputs[j]? = some input → input.given.isSome) →
      ∀ j < k, ∀ input, inputs[j]? = some input → ¬ input.TakesEffect parse env s j

section
variable (parse : String → Except String SocketAddr) (env : PopulateEnv) (s₀ : ControlState) (inputs : List ProxyInput)

/-- The loop has come past the entries below `index`. -/
structure Passed (index : Nat) (rest : List ProxyInput) : Prop where
  rest : rest = inputs.drop index
  named : ∀ j < index, ∀ input, inputs[j]? = some input → input.given.isSome

/-- Nothing has taken effect below `index`. -/
structure Unchanged (index : Nat) (s : ControlState) : Prop where
  same : SameRegistry s₀ s
  effectless : ∀ j < index, ∀ input, inputs[j]? = some input → ¬ input.TakesEffect parse env s₀ j

/-- Something has. -/
structure Affected (index : Nat) (s : ControlState) : Prop where
  changed : Changed s₀ s
  cause : ∃ j < index, ∃ input, inputs[j]? = some input ∧ input.TakesEffect parse env s₀ j

/-- Where the making of a proxy can be that is not there yet. -/
def CreatePhase (index : Nat) (spec : ProxySpec) (s : ControlState) : Task → Prop
  | .checking spec' => spec' = spec ∧ spec.enabled = true ∧ env.down = false ∧ spec.validate = .ok () ∧ SameRegistry s₀ s
  | .createBinding spec' =>
    spec' = spec ∧ spec.enabled = true ∧ env.down = false ∧ spec.validate = .ok () ∧
      s₀.proxies.length < maxStreamProxies ∧ SameRegistry s₀ s
  | .createSpawning spec' _ | .inserting spec' _ _ =>
    spec'.name = spec.name ∧ env.down = false ∧ s₀.proxies.length < maxStreamProxies ∧ env.Creates s₀ index spec ∧
      SameRegistry s₀ s
  | .importing spec' => spec'.name = spec.name ∧ env.Creates s₀ index spec ∧ SameRegistry s₀ s
  | .returned (.error _) => ¬ env.Creates s₀ index spec ∧ SameRegistry s₀ s
  | .returned (.ok _) => env.Creates s₀ index spec ∧ Changed s₀ s
  | _ => False

/-- Where a `populate` can be. -/
def PopulatePhase (s : ControlState) : PopulateTask → Prop
  | .entry index rest _ =>
    Passed inputs index rest ∧ (Unchanged parse env s₀ inputs index s ∨ Affected parse env s₀ inputs index s)
  | .deleting spec index rest _ task =>
    Passed inputs (index + 1) rest ∧
      (Affected parse env s₀ inputs (index + 1) s ∨
        (SameRegistry s₀ s ∧ task = .removing spec.name ∧ (s₀.proxies.get spec.name).isSome ∧
          ∃ input, inputs[index]? = some input ∧ input.TakesEffect parse env s₀ index))
  | .creating _ index rest _ task =>
    Passed inputs (index + 1) rest ∧
      (Affected parse env s₀ inputs (index + 1) s ∨
        ∃ input name listen upstream, inputs[index]? = some input ∧ input.resolveAddrs parse = .ok (name, listen, upstream) ∧
          s₀.proxies.get name = none ∧ (∀ j < index, ∀ input, inputs[j]? = some input → ¬ input.TakesEffect parse env s₀ j) ∧
          CreatePhase env s₀ index (input.definition name listen upstream) s task)
  | .rendering _ index rest _ => Passed inputs (index + 1) rest ∧ Affected parse env s₀ inputs (index + 1) s
  | .done (.error _) =>
    ∃ k nameless, inputs[k]? = some nameless ∧ nameless.given = none ∧
      (∀ j < k, ∀ input, inputs[j]? = some input → input.given.isSome) ∧
      (Unchanged parse env s₀ inputs k s ∨ Affected parse env s₀ inputs k s)
  | .done (.ok _) => True

variable {parse env s₀ inputs} {s : ControlState} {seed : UInt64} {profile : CompatProfile} {index : Nat}
  {rest : List ProxyInput}
  {input : ProxyInput}

theorem Passed.here (h : Passed inputs index (input :: rest)) : inputs[index]? = some input := by
  have hhead := congrArg (fun l : List ProxyInput => l[0]?) h.rest
  simpa [List.getElem?_drop] using hhead.symm

theorem Passed.next (h : Passed inputs index (input :: rest)) (hgiven : input.given.isSome) :
    Passed inputs (index + 1) rest := by
  refine ⟨?_, fun j hj input' hinput' => ?_⟩
  · rw [← List.drop_drop, ← h.rest]
    rfl
  · rcases Nat.lt_succ_iff_lt_or_eq.1 hj with hlt | rfl
    · exact h.named j hlt input' hinput'
    · rw [h.here] at hinput'
      cases hinput'
      exact hgiven

theorem Affected.later {index' : Nat} (h : Affected parse env s₀ inputs index s) (hle : index ≤ index') :
    Affected parse env s₀ inputs index' s := by
  obtain ⟨j, hj, hcause⟩ := h.cause
  exact ⟨h.changed, j, Nat.lt_of_lt_of_le hj hle, hcause⟩

theorem Affected.step {s' : ControlState} (h : Affected parse env s₀ inputs index s) (hchanged : Changed s₀ s') :
    Affected parse env s₀ inputs index s' := ⟨hchanged, h.cause⟩

/-- The entry at the head has taken no effect. -/
theorem Unchanged.next (h : Unchanged parse env s₀ inputs index s) (hhere : inputs[index]? = some input)
    (hnone : ¬ input.TakesEffect parse env s₀ index) : Unchanged parse env s₀ inputs (index + 1) s := by
  refine ⟨h.same, fun j hj input' hinput' => ?_⟩
  rcases Nat.lt_succ_iff_lt_or_eq.1 hj with hlt | rfl
  · exact h.effectless j hlt input' hinput'
  · rw [hhere] at hinput'
    cases hinput'
    exact hnone

/-- The native call that makes a proxy of the entry begins. -/
theorem start_create (spec : ProxySpec) (h : SameRegistry s₀ s) :
    CreatePhase env s₀ index spec (env.create seed s spec).1 (env.create seed s spec).2 := by
  unfold PopulateEnv.create
  split
  · next henabled =>
    split
    · next hdown =>
      refine ⟨fun hcreates => ?_, h⟩
      exact Bool.false_ne_true ((hcreates.starts henabled).1.symm.trans hdown)
    · next hup =>
      simp only [ControlState.start]
      split
      · next e hinvalid =>
        refine ⟨fun hcreates => ?_, h⟩
        rw [hcreates.valid] at hinvalid
        cases hinvalid
      · next hvalid => exact ⟨rfl, henabled, by simpa using hup, hvalid, h⟩
  · next hdisabled =>
    simp only [ControlState.start]
    split
    · next e hinvalid =>
      refine ⟨fun hcreates => ?_, h⟩
      rw [hcreates.valid] at hinvalid
      cases hinvalid
    · next hvalid => exact ⟨rfl, ⟨hvalid, fun henabled => absurd henabled hdisabled⟩, h⟩

/-- One await of it. -/
theorem advance_create {spec : ProxySpec} {task : Task} (hfree : s₀.proxies.get spec.name = none)
    (h : CreatePhase env s₀ index spec s task) :
    CreatePhase env s₀ index spec (advanceAlone seed (env.native index) s task).1
      (advanceAlone seed (env.native index) s task).2 := by
  have hcomes {s' : ControlState} {spec' : ProxySpec} {entry : ManagedProxy} (hname : spec'.name = spec.name)
      (hsame : SameRegistry s₀ s) (hproxies : s'.proxies = s.proxies.insert spec'.name entry)
      (hcancelled : s'.cancelled = s.cancelled) : Changed s₀ s' := by
    refine ⟨by rw [hcancelled, hsame.cancelled], .inr ⟨spec.name, hfree, ?_⟩⟩
    rw [hproxies, hsame.proxies, Registry.get_insert, hname, hfree, if_pos rfl]
    rfl
  cases task with
  | checking spec' =>
    obtain ⟨rfl, henabled, hup, hvalid, hsame⟩ := h
    have hget : s.proxies.get spec'.name = none := by rw [hsame.proxies, hfree]
    simp only [advanceAlone, PopulateEnv.native, hup, Bool.false_eq_true, if_false, ControlState.proceed, hget,
      Option.isSome_none]
    split
    · next hfull =>
      refine ⟨fun hcreates => ?_, hsame⟩
      have hroom := (hcreates.starts henabled).2.1
      rw [hsame.proxies] at hfull
      exact absurd hroom (Nat.not_lt.2 hfull)
    · next hroom =>
      rw [hsame.proxies] at hroom
      exact ⟨rfl, henabled, hup, hvalid, Nat.lt_of_not_le hroom, hsame⟩
  | createBinding spec' =>
    obtain ⟨rfl, henabled, hup, hvalid, hroom, hsame⟩ := h
    simp only [advanceAlone, PopulateEnv.native, UpdateEnv.bind, hup, Bool.false_eq_true, if_false, ControlState.proceed]
    split
    · next reason hbind =>
      refine ⟨fun hcreates => ?_, hsame⟩
      have hbound := (hcreates.starts henabled).2.2
      rw [hbind] at hbound
      cases hbound
    · next bound hbind =>
      exact ⟨rfl, hup, hroom, ⟨hvalid, fun _ => ⟨hup, hroom, by rw [hbind]; rfl⟩⟩, hsame⟩
  | createSpawning spec' bound =>
    obtain ⟨hname, hup, hroom, hcreates, hsame⟩ := h
    simp only [advanceAlone, PopulateEnv.native, hup, Bool.false_eq_true, if_false, ControlState.proceed]
    exact ⟨hname, hup, hroom, hcreates, hsame.proxies, hsame.cancelled⟩
  | inserting spec' bound k =>
    obtain ⟨hname, hup, hroom, hcreates, hsame⟩ := h
    have hget : s.proxies.get spec'.name = none := by rw [hsame.proxies, hname, hfree]
    have hroom' : ¬ maxStreamProxies ≤ s.proxies.length := by
      rw [hsame.proxies]
      exact Nat.not_le.2 hroom
    simp only [advanceAlone, PopulateEnv.native, hup, Bool.false_eq_true, if_false, ControlState.proceed, hget,
      Option.isSome_none, hroom']
    exact ⟨hcreates, hcomes hname hsame rfl rfl⟩
  | importing spec' =>
    obtain ⟨hname, hcreates, hsame⟩ := h
    have hget : s.proxies.get spec'.name = none := by rw [hsame.proxies, hname, hfree]
    have hgo (bind : Except String SocketAddr) : CreatePhase env s₀ index spec (s.proceed seed (.importing spec') bind).1
        (s.proceed seed (.importing spec') bind).2 := by
      simp only [ControlState.proceed, hget, Option.isSome_none, Bool.false_eq_true, if_false]
      exact ⟨hcreates, hcomes hname hsame rfl rfl⟩
    unfold advanceAlone
    split
    · exact hgo (env.binds index)
    · exact hgo (env.binds index)
  | returned result =>
    unfold advanceAlone
    split
    · exact h
    · exact h
  | _ => exact h.elim

/-- Beginning to make a proxy changes nothing. -/
theorem create_same (spec : ProxySpec) (seed : UInt64) (env : PopulateEnv) (s : ControlState) :
    (env.create seed s spec).1.proxies = s.proxies ∧ (env.create seed s spec).1.cancelled = s.cancelled := by
  unfold PopulateEnv.create
  split
  · split
    · exact ⟨rfl, rfl⟩
    · exact ⟨(s.start_regenerated seed _).proxies, (s.start_regenerated seed _).cancelled⟩
  · exact ⟨(s.start_regenerated seed _).proxies, (s.start_regenerated seed _).cancelled⟩

/-- The loop at an entry that has a name. -/
theorem proceed_entry {rendered : List ProxyObject} (hpassed : Passed inputs index (input :: rest))
    (hgiven : input.given.isSome)
    (h : Unchanged parse env s₀ inputs index s ∨ Affected parse env s₀ inputs index s) :
    let out := PopulateTask.proceed seed parse profile env s (.entry index (input :: rest) rendered)
    PopulatePhase parse env s₀ inputs out.1 out.2 := by
  have hnext := hpassed.next hgiven
  have hhere := hpassed.here
  have hskips (hnone : ¬ input.TakesEffect parse env s₀ index) :
      Unchanged parse env s₀ inputs (index + 1) s ∨ Affected parse env s₀ inputs (index + 1) s :=
    h.imp (fun hunchanged => hunchanged.next hhere hnone) fun haffected => haffected.later (Nat.le_succ index)
  have hgiven' : input.given.isNone = false := by simpa using hgiven
  simp only [PopulateTask.proceed, hgiven', Bool.false_eq_true, if_false]
  split
  · next e herror =>
    refine ⟨hnext, hskips ?_⟩
    rintro ⟨name, listen, upstream, hresolve, -⟩
    rw [hresolve] at herror
    cases herror
  · next name listen upstream hresolve =>
    rcases h with hunchanged | haffected
    · have hsame := hunchanged.same
      rw [hsame.proxies]
      split
      · next found hfound =>
        split
        · next heq =>
          refine ⟨hnext, .inl (hunchanged.next hhere ?_)⟩
          rintro ⟨name', listen', upstream', hresolve', htakes⟩
          rw [hresolve] at hresolve'
          cases hresolve'
          rcases htakes with ⟨found', hfound', hne⟩ | ⟨hnone, -⟩
          · rw [hfound] at hfound'
            cases hfound'
            exact hne heq
          · rw [hfound] at hnone
            cases hnone
        · next hne =>
          refine ⟨hnext, .inr ⟨hsame, rfl, ?_, input, hhere, ?_⟩⟩
          · exact (congrArg Option.isSome hfound).trans rfl
          · exact ⟨name, listen, upstream, hresolve, .inl ⟨found, hfound, hne⟩⟩
      · next hfree =>
        exact ⟨hnext, .inr ⟨input, name, listen, upstream, hhere, hresolve, hfree, hunchanged.effectless,
          start_create (input.definition name listen upstream) hsame⟩⟩
    · have hlater := haffected.later (Nat.le_succ index)
      split
      · split
        · exact ⟨hnext, .inr hlater⟩
        · exact ⟨hnext, .inl hlater⟩
      · obtain ⟨hproxies, hcancelled⟩ := create_same (input.definition name listen upstream) seed env s
        exact ⟨hnext, .inl (hlater.step (haffected.changed.congr hproxies hcancelled))⟩

/-- One await of `populate`. -/
theorem proceed_populate {task : PopulateTask} (h : PopulatePhase parse env s₀ inputs s task) :
    PopulatePhase parse env s₀ inputs (task.proceed seed parse profile env s).1
      (task.proceed seed parse profile env s).2 := by
  cases task with
  | entry index rest rendered =>
    obtain ⟨hpassed, h⟩ := h
    cases rest with
    | nil => trivial
    | cons input rest =>
      cases hgiven : input.given with
      | none =>
        simp only [PopulateTask.proceed, hgiven, Option.isNone_none, if_true]
        exact ⟨index, input, hpassed.here, hgiven, hpassed.named, h⟩
      | some name => exact proceed_entry hpassed (by rw [hgiven]; rfl) h
  | deleting spec index rest rendered native =>
    obtain ⟨hpassed, haffected | ⟨hsame, rfl, hsome, input, hhere, htakes⟩⟩ := h
    · unfold PopulateTask.proceed
      dsimp only
      split
      · obtain ⟨hproxies, hcancelled⟩ := create_same spec seed env s
        exact ⟨hpassed, .inl (haffected.step (haffected.changed.congr hproxies hcancelled))⟩
      · exact ⟨hpassed, .inl (haffected.step (haffected.changed.advance (env.native index) _))⟩
    · obtain ⟨found, hfound⟩ := Option.isSome_iff_exists.1 hsome
      have hget : s.proxies.get spec.name = some found := by rw [hsame.proxies, hfound]
      have hremoved (bind : Except String SocketAddr) :
          s.proceed seed (.removing spec.name) bind = (s.delete spec.name found, .removed spec.name found.done) := by
        simp only [ControlState.proceed, hget]
      have hadvance : advanceAlone seed (env.native index) s (.removing spec.name) =
          (s.delete spec.name found, .removed spec.name found.done) := by
        unfold advanceAlone
        split
        · exact hremoved (env.binds index)
        · exact hremoved (env.binds index)
      have hgrown : s₀.cancelled.length < (s.delete spec.name found).cancelled.length := by
        rw [← hsame.cancelled]
        exact Nat.lt_succ_self _
      simp only [PopulateTask.proceed, hadvance]
      exact ⟨hpassed, .inl ⟨⟨hgrown.le, .inl hgrown⟩, index, Nat.lt_succ_self index, input, hhere, htakes⟩⟩
  | creating name index rest rendered native =>
    obtain ⟨hpassed, haffected | ⟨input, name', listen, upstream, hhere, hresolve, hfree, heffectless, hphase⟩⟩ := h
    · unfold PopulateTask.proceed
      dsimp only
      split
      · exact ⟨hpassed, haffected⟩
      · exact ⟨hpassed, .inr haffected⟩
      · exact ⟨hpassed, .inl (haffected.step (haffected.changed.advance (env.native index) _))⟩
    · unfold PopulateTask.proceed
      dsimp only
      split
      · obtain ⟨hcreates, hchanged⟩ := hphase
        exact ⟨hpassed, hchanged, index, Nat.lt_succ_self index, input, hhere, name', listen, upstream, hresolve,
          .inr ⟨hfree, hcreates⟩⟩
      · obtain ⟨hrefused, hsame⟩ := hphase
        have hunchanged : Unchanged parse env s₀ inputs index s := ⟨hsame, heffectless⟩
        refine ⟨hpassed, .inl (hunchanged.next hhere ?_)⟩
        rintro ⟨name'', listen', upstream', hresolve', htakes⟩
        rw [hresolve] at hresolve'
        cases hresolve'
        rcases htakes with ⟨found, hfound, -⟩ | ⟨-, hcreates⟩
        · rw [hfree] at hfound
          cases hfound
        · exact hrefused hcreates
      · exact ⟨hpassed, .inr ⟨input, name', listen, upstream, hhere, hresolve, hfree, heffectless,
          advance_create hfree hphase⟩⟩
  | rendering name index rest rendered => exact ⟨h.1, .inr h.2⟩
  | done result => exact h

/-- Supervisors leave the registry and the scopes as they are. -/
theorem CreatePhase.congr {s' : ControlState} {spec : ProxySpec} {task : Task} (h : CreatePhase env s₀ index spec s task)
    (hproxies : s'.proxies = s.proxies) (hcancelled : s'.cancelled = s.cancelled) :
      CreatePhase env s₀ index spec s' task := by
  cases task with
  | checking spec' =>
    obtain ⟨rfl, henabled, hup, hvalid, hsame⟩ := h
    exact ⟨rfl, henabled, hup, hvalid, hsame.congr hproxies hcancelled⟩
  | createBinding spec' =>
    obtain ⟨rfl, henabled, hup, hvalid, hroom, hsame⟩ := h
    exact ⟨rfl, henabled, hup, hvalid, hroom, hsame.congr hproxies hcancelled⟩
  | createSpawning | inserting =>
    obtain ⟨hname, hup, hroom, hcreates, hsame⟩ := h
    exact ⟨hname, hup, hroom, hcreates, hsame.congr hproxies hcancelled⟩
  | importing spec' =>
    obtain ⟨hname, hcreates, hsame⟩ := h
    exact ⟨hname, hcreates, hsame.congr hproxies hcancelled⟩
  | returned result =>
    cases result with
    | error e => exact ⟨h.1, h.2.congr hproxies hcancelled⟩
    | ok answer => exact ⟨h.1, h.2.congr hproxies hcancelled⟩
  | _ => exact h.elim

theorem PopulatePhase.congr {s' : ControlState} {task : PopulateTask} (h : PopulatePhase parse env s₀ inputs s task)
    (hproxies : s'.proxies = s.proxies) (hcancelled : s'.cancelled = s.cancelled) :
    PopulatePhase parse env s₀ inputs s' task := by
  have hunchanged {index : Nat} (hu : Unchanged parse env s₀ inputs index s) : Unchanged parse env s₀ inputs index s' :=
    ⟨hu.same.congr hproxies hcancelled, hu.effectless⟩
  have haffected {index : Nat} (ha : Affected parse env s₀ inputs index s) : Affected parse env s₀ inputs index s' :=
    ha.step (ha.changed.congr hproxies hcancelled)
  cases task with
  | entry index rest rendered => exact ⟨h.1, h.2.imp hunchanged haffected⟩
  | deleting spec index rest rendered native =>
    exact ⟨h.1, h.2.imp haffected fun hfirst => ⟨hfirst.1.congr hproxies hcancelled, hfirst.2⟩⟩
  | creating name index rest rendered native =>
    refine ⟨h.1, h.2.imp haffected ?_⟩
    rintro ⟨input, name', listen, upstream, hhere, hresolve, hfree, heffectless, hphase⟩
    exact ⟨input, name', listen, upstream, hhere, hresolve, hfree, heffectless, hphase.congr hproxies hcancelled⟩
  | rendering name index rest rendered => exact ⟨h.1, haffected h.2⟩
  | done result =>
    cases result with
    | ok objects => trivial
    | error e =>
      obtain ⟨k, nameless, hk, hgiven, hnamed, hstate⟩ := h
      exact ⟨k, nameless, hk, hgiven, hnamed, hstate.imp hunchanged haffected⟩

theorem populateStep_phase {x : ControlState × PopulateTask} (h : PopulatePhase parse env s₀ inputs x.1 x.2) (o : AloneOp) :
    PopulatePhase parse env s₀ inputs (PopulateTask.step seed parse profile env x o).1
      (PopulateTask.step seed parse profile env x o).2 := by
  cases o with
  | advance => exact proceed_populate h
  | supervisor k turn =>
    have hcancelled : (x.1.step seed (.supervisor k turn)).cancelled = x.1.cancelled := by
      simp only [ControlState.step]
      split <;> rfl
    exact h.congr (x.1.step_supervisor_proxies seed k turn) hcancelled

/-- A `populate` that fails has changed nothing exactly if no entry before the first
nameless one has taken effect. -/
theorem failed_populate_same (ops : List AloneOp) {s s' : ControlState} {e : CompatError}
    (h : populateAlone seed parse profile env s inputs ops = (s', .done (.error e))) :
    AllSame s s' ↔ HarmlessEntries parse env s inputs := by
  have hstart : PopulatePhase parse env s inputs s (.entry 0 inputs []) := by
    refine ⟨⟨rfl, fun j hj => absurd hj (Nat.not_lt_zero j)⟩, .inl ⟨⟨rfl, rfl⟩, fun j hj => absurd hj (Nat.not_lt_zero j)⟩⟩
  have hphase : PopulatePhase parse env s inputs (populateAlone seed parse profile env s inputs ops).1
      (populateAlone seed parse profile env s inputs ops).2 :=
    run_inv (fun x : ControlState × PopulateTask => PopulatePhase parse env s inputs x.1 x.2)
      (fun _ o hx => populateStep_phase hx o) hstart ops
  rw [h] at hphase
  obtain ⟨k, nameless, hk, hgiven, hnamed, hstate⟩ := hphase
  rcases hstate with hunchanged | haffected
  · refine iff_of_true hunchanged.same.allSame ?_
    intro k' nameless' hk' hgiven' hnamed' j hj input hinput
    refine hunchanged.effectless j ?_ input hinput
    -- the first nameless entry is one
    refine Nat.lt_of_not_le fun hle => ?_
    have hsome := hnamed' k (Nat.lt_of_le_of_lt hle hj) nameless hk
    rw [hgiven] at hsome
    cases hsome
  · refine iff_of_false haffected.changed.not_allSame fun hharmless => ?_
    obtain ⟨j, hj, input, hinput, htakes⟩ := haffected.cause
    exact hharmless k nameless hk hgiven hnamed j hj input hinput htakes

end

/-! ## Both -/

/-- A call of the adapter that returns an error has left every proxy as it was,
exactly if nothing of it took effect: for `update`, it neither started nor stopped
the proxy, nor moved it to other addresses; for `populate`, no entry before the
first nameless one replaced or made a proxy. -/
theorem failed_call_iff (seed : UInt64) (parse : String → Except String SocketAddr) (profile : CompatProfile)
    (s : ControlState) :
    (∀ (env : UpdateEnv) (name : String) (patch : ProxyUpdate) (ops : List AloneOp) (s' : ControlState) (e : CompatError),
        updateProxyAlone seed parse profile env name s patch ops = (s', .done (.error e)) →
          (AllSame s s' ↔ ∀ entry, s.proxies.get name = some entry → ¬ patch.TakesEffect parse env entry)) ∧
      ∀ (env : PopulateEnv) (inputs : List ProxyInput) (ops : List AloneOp) (s' : ControlState) (e : CompatError),
        populateAlone seed parse profile env s inputs ops = (s', .done (.error e)) →
          (AllSame s s' ↔ HarmlessEntries parse env s inputs) :=
  ⟨fun _ _ _ ops _ _ h => failed_update_same ops h, fun _ _ ops _ _ h => failed_populate_same ops h⟩

/-- What the standard library makes of two texts. -/
def parseExample (text : String) : Except String SocketAddr :=
  if text = "127.0.0.1:2000" then .ok ⟨.v4 127 0 0 1, 2000⟩ else .error "invalid socket address syntax"

/-- An update whose target is no address, with or without `enabled`. -/
def badUpstream (enabled : Option Bool) : ProxyUpdate := ⟨none, some "nowhere", enabled⟩

/-- An entry without a name. -/
def namelessInput : ProxyInput := ⟨none, none, none, none⟩

/-- An entry for a proxy that is not started. -/
def disabledInput : ProxyInput := ⟨some "q", none, some "127.0.0.1:2000", some false⟩

/-- Every bind succeeds. -/
def bindableEntries : PopulateEnv := ⟨false, fun _ => .ok plainSpec.listen⟩

theorem failed_call_iff_harmless :
    AllSame importedState (updateProxyAlone 0 parseExample .strictV2_12 bindable "p" importedState (badUpstream none)
        [.advance]).1 ∧
      AllSame importedState (populateAlone 0 parseExample .strictV2_12 bindableEntries importedState
        [namelessInput, disabledInput] [.advance]).1 := by
  constructor
  · refine ((failed_call_iff 0 parseExample .strictV2_12 importedState).1 bindable "p" (badUpstream none) [.advance] _ _ rfl).2 ?_
    rintro entry - ((⟨hoff, -⟩ | ⟨hon, -⟩) | ⟨-, native, hnative, -⟩)
    · cases hoff
    · cases hon
    · cases hnative
  · refine ((failed_call_iff 0 parseExample .strictV2_12 importedState).2 bindableEntries [namelessInput, disabledInput]
      [.advance] _ _ rfl).2 ?_
    intro k nameless hk hgiven hnamed j hj
    have hsome := hnamed 0 (Nat.zero_lt_of_lt hj) namelessInput rfl
    cases hsome

/-- The update has started the proxy when it comes to its target; and the entry
before the nameless one has made a proxy. -/
theorem failed_call_changes :
    ((updateProxyAlone 0 parseExample .strictV2_12 bindable "p" importedState (badUpstream (some true))
          (List.replicate 6 .advance)).2 = .done (.error ⟨400, "invalid socket address syntax"⟩) ∧
        ¬ AllSame importedState (updateProxyAlone 0 parseExample .strictV2_12 bindable "p" importedState
          (badUpstream (some true)) (List.replicate 6 .advance)).1) ∧
      (populateAlone 0 parseExample .strictV2_12 bindableEntries importedState [disabledInput, namelessInput]
          (List.replicate 5 .advance)).2 = .done (.error ⟨400, "missing required field: name at proxy 2"⟩) ∧
        ¬ AllSame importedState (populateAlone 0 parseExample .strictV2_12 bindableEntries importedState
          [disabledInput, namelessInput] (List.replicate 5 .advance)).1 := by
  refine ⟨⟨rfl, fun hsame => ?_⟩, rfl, fun hsame => ?_⟩
  · have hrunning := congrArg (Option.map fun v => v.2.1) (hsame.proxies "p")
    exact absurd hrunning (by decide)
  · have hpresent := congrArg Option.isSome (hsame.proxies "q")
    exact absurd hpresent (by decide)

end Eggchaos
