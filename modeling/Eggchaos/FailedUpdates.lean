import Eggchaos.FieldUpdates
/-!
# Updates that fail

An `update_proxy` on its own: no other call runs, supervisors take their turns,
and the shutdown flag, which `start_stored` and `spawn_supervisor` look at, is
set or not. It applies `enabled` first, through `set_enabled`, and checks the
other fields after that; and a restart gives up the old listener before
`spawn_supervisor` looks at the flag. In these two ways, and in no others, a
call that returns an error has changed its proxy (`failed_update_iff`).
-/

namespace Eggchaos
open Lib

/-! ## With the shutdown flag -/

def shuttingDown : ControlError := .invalid "control state is shutting down"

def serviceShuttingDown : ControlError := .invalid "service is shutting down"

namespace ControlState

/-- `proceed` once shutdown is initiated: nothing is started or spawned. -/
def proceedDown (seed : UInt64) (s : ControlState) (task : Task) (bind : Except String SocketAddr) :
    ControlState × Task :=
  match task with
  | .enabling name patch =>
    match s.proxies.get name with
    | none => s.fail (.notFound name)
    | some entry =>
      if entry.running then (s.askEnabled name true).enabledDone name patch
      else s.started (.setEnabled name patch) (some shuttingDown)
  | .rereading caller =>
    match s.proxies.get caller.name with
    | none => s.proceed seed task bind
    | some _ => s.started caller (some shuttingDown)
  | .binding _ caller =>
    match bind with
    | .error reason => s.started caller (some (.bindFailed caller.name reason))
    | .ok _ => s.started caller (some shuttingDown)
  | .spawning _ caller => s.started caller (some serviceShuttingDown)
  | .respawning _ _ _ _ | .createSpawning _ _ => s.fail serviceShuttingDown
  | _ => s.proceed seed task bind

end ControlState

/-- What an update meets: the shutdown flag, and how its two binds end. -/
structure UpdateEnv where
  down : Bool
  /-- The stored listen address, where the update starts the proxy. -/
  listen : Except String SocketAddr
  replacement : Except String SocketAddr
deriving DecidableEq

namespace UpdateEnv

def bind (env : UpdateEnv) : Task → Except String SocketAddr
  | .prebinding _ _ _ => env.replacement
  | _ => env.listen

end UpdateEnv

/-- The call goes on, or a supervisor does. -/
inductive AloneOp where
  | advance
  | supervisor (k : Nat) (turn : ControlState.Turn)
deriving DecidableEq, Repr

/-- One await of the call. -/
def advanceAlone (seed : UInt64) (env : UpdateEnv) (s : ControlState) (task : Task) : ControlState × Task :=
  if env.down then s.proceedDown seed task (env.bind task) else s.proceed seed task (env.bind task)

def aloneStep (seed : UInt64) (env : UpdateEnv) (x : ControlState × Task) : AloneOp → ControlState × Task
  | .advance => advanceAlone seed env x.1 x.2
  | .supervisor k turn => (x.1.step seed (.supervisor k turn), x.2)

/-- `update_proxy` with nothing beside it. -/
def updateAlone (seed : UInt64) (env : UpdateEnv) (s : ControlState) (name : String) (patch : ProxyPatch)
    (ops : List AloneOp) : ControlState × Task :=
  run (aloneStep seed env) (s.start seed (.update name patch)) ops

/-! ## What a failed update leaves -/

/-- The definition, the running flag, the bound address, and the listener by its
scope and supervisor. -/
def ManagedProxy.visible (entry : ManagedProxy) : ProxySpec × Bool × Option SocketAddr × Nat × Option Nat :=
  (entry.spec, entry.running, entry.boundAddr, entry.cancel, entry.done)

/-- The entry is as before, and no scope is cancelled. -/
def Untouched (name : String) (entry : ManagedProxy) (cancelled : List Nat) (s : ControlState) : Prop :=
  (∃ entry', s.proxies.get name = some entry' ∧ entry'.visible = entry.visible) ∧ s.cancelled = cancelled

/-- The `enabled` part of the patch starts the proxy or stops it. -/
def UpdateEnv.Flips (env : UpdateEnv) (patch : ProxyPatch) (entry : ManagedProxy) : Prop :=
  (patch.enabled = some false ∧ entry.running = true) ∨
    (patch.enabled = some true ∧ entry.running = false ∧ env.down = false ∧ env.listen.isOk)

/-- The patch passes all checks and needs a new listener for a running proxy. -/
structure ProxyPatch.Restarts (patch : ProxyPatch) (entry : ManagedProxy) : Prop where
  timeout : patch.connectTimeoutMs ≠ some 0
  valid : (patch.apply entry.spec).validate = .ok ()
  restarts : patch.restarts entry.spec = true
  running : entry.running = true

/-- Such a restart while the service shuts down, with its listener bound. -/
def UpdateEnv.Strands (env : UpdateEnv) (patch : ProxyPatch) (entry : ManagedProxy) : Prop :=
  env.down = true ∧ patch.Restarts entry ∧ env.replacement.isOk

/-! ## Past the `enabled` part -/

section
variable (env : UpdateEnv) (name : String) (patch : ProxyPatch) (base : ManagedProxy) (cancelled : List Nat)

/-- The phases past the `enabled` part, which has left `base`. -/
def Tail (s : ControlState) : Task → Prop
  | .viewing name' _ | .writingBack name' _ _ => name' = name ∧ Untouched name base cancelled s
  | .cloning name' p =>
    name' = name ∧ p.patch = patch ∧ patch.connectTimeoutMs ≠ some 0 ∧ Untouched name base cancelled s
  | .prebinding name' _ _ => name' = name ∧ patch.Restarts base ∧ Untouched name base cancelled s
  | .releasing name' _ _ _ =>
    name' = name ∧ patch.Restarts base ∧ env.replacement.isOk ∧ Untouched name base cancelled s
  | .draining name' _ _ _ _ | .respawning name' _ _ _ =>
    name' = name ∧ patch.Restarts base ∧ env.replacement.isOk ∧
      ∃ entry', s.proxies.get name = some entry' ∧ entry'.running = false
  | .restoring name' _ _ _ _ => name' = name ∧ ∃ entry', s.proxies.get name = some entry'
  | .returned (.error _) =>
    (Untouched name base cancelled s ∧ ¬ env.Strands patch base) ∨
      (env.Strands patch base ∧ ∃ entry', s.proxies.get name = some entry' ∧ entry'.running = false)
  | .returned (.ok _) => True
  | _ => False

variable {env name patch base cancelled} {s s' : ControlState}

theorem Untouched.entry (h : Untouched name base cancelled s) :
    ∃ entry', s.proxies.get name = some entry' ∧ entry'.visible = base.visible := h.1

theorem Untouched.same (h : Untouched name base cancelled s) (hp : s'.proxies = s.proxies)
    (hc : s'.cancelled = s.cancelled) : Untouched name base cancelled s' :=
  ⟨by rw [hp]; exact h.entry, hc.trans h.2⟩

/-- The clone is made from what the proxy shows. -/
theorem Untouched.spec (h : Untouched name base cancelled s) {entry : ManagedProxy}
    (hget : s.proxies.get name = some entry) : entry.spec = base.spec ∧ entry.running = base.running := by
  obtain ⟨entry', hget', hsame⟩ := h.entry
  rw [hget] at hget'
  cases hget'
  simp only [ManagedProxy.visible, Prod.mk.injEq] at hsame
  exact ⟨hsame.1, hsame.2.1⟩

theorem patchFields_tail (h : Untouched name base cancelled s) {p : Patching} (hp : p.patch = patch) :
    Tail env name patch base cancelled (s.patchFields name p).1 (s.patchFields name p).2 := by
  unfold ControlState.patchFields
  split
  · next hzero =>
    refine .inl ⟨h, ?_⟩
    rintro ⟨-, hrestarts, -⟩
    exact hrestarts.timeout (hp ▸ hzero)
  · next hne => exact ⟨rfl, hp, hp ▸ hne, h⟩

theorem enabledDone_tail (h : Untouched name base cancelled s) :
    Tail env name patch base cancelled (s.enabledDone name (some patch)).1 (s.enabledDone name (some patch)).2 := by
  unfold ControlState.enabledDone
  dsimp only
  split
  · exact ⟨rfl, h⟩
  · exact patchFields_tail h rfl

theorem updated_tail (s : ControlState) (p : Patching) :
    Tail env name patch base cancelled (s.updated p).1 (s.updated p).2 := by
  unfold ControlState.updated
  split <;> trivial

/-- One await, where no supervisor is spawned for a service that shuts down. -/
theorem proceed_tail {seed : UInt64} {task : Task} (h : Tail env name patch base cancelled s task)
    (hdown : ∀ name p spec bound, task = .respawning name p spec bound → env.down = false) :
    Tail env name patch base cancelled (s.proceed seed task (env.bind task)).1
      (s.proceed seed task (env.bind task)).2 := by
  unfold ControlState.proceed
  cases task with
  | viewing name' generation =>
    obtain ⟨rfl, huntouched⟩ := h
    obtain ⟨entry, hget, -⟩ := huntouched.entry
    simp only [hget]
    trivial
  | cloning name' p =>
    obtain ⟨rfl, hp, htimeout, huntouched⟩ := h
    obtain ⟨entry, hget, -⟩ := huntouched.entry
    obtain ⟨hspec, hrunning⟩ := huntouched.spec hget
    simp only [hget, hspec, hp]
    split
    · next e hinvalid =>
      refine .inl ⟨huntouched, ?_⟩
      rintro ⟨-, hrestarts, -⟩
      rw [hrestarts.valid] at hinvalid
      cases hinvalid
    · next hvalid =>
      split
      · exact ⟨rfl, huntouched⟩
      · next hrestart =>
        simp only [hrunning, Bool.or_eq_true, Bool.not_eq_true', not_or, Bool.not_eq_false] at hrestart
        exact ⟨rfl, ⟨htimeout, hvalid, hrestart.1, hrestart.2⟩, huntouched⟩
  | writingBack name' p spec =>
    obtain ⟨rfl, huntouched⟩ := h
    obtain ⟨entry, hget, -⟩ := huntouched.entry
    simp only [hget]
    exact updated_tail _ _
  | prebinding name' p spec =>
    obtain ⟨rfl, hrestarts, huntouched⟩ := h
    simp only [UpdateEnv.bind]
    split
    · next reason hbind =>
      refine .inl ⟨huntouched, ?_⟩
      rintro ⟨-, -, hbound⟩
      rw [hbind] at hbound
      cases hbound
    · next bound hbind => exact ⟨rfl, hrestarts, by rw [hbind]; rfl, huntouched⟩
  | releasing name' p spec bound =>
    obtain ⟨rfl, hrestarts, hbound, huntouched⟩ := h
    obtain ⟨entry, hget, -⟩ := huntouched.entry
    obtain ⟨-, hrunning⟩ := huntouched.spec hget
    simp only [hget, hrunning, hrestarts.running, Bool.not_true, Bool.false_eq_true, if_false]
    refine ⟨rfl, hrestarts, hbound, entry.released s.tokens, ?_, rfl⟩
    rw [ControlState.release_proxies, Registry.get_modify, if_pos rfl, hget]
    rfl
  | draining name' p spec bound done =>
    dsimp only
    split
    · exact h
    · exact h
  | respawning name' p spec bound =>
    obtain ⟨rfl, -, -, entry', hget, -⟩ := h
    exact ⟨rfl, entry', hget⟩
  | restoring name' p spec bound k =>
    obtain ⟨rfl, entry', hget⟩ := h
    simp only [hget]
    exact updated_tail _ _
  | returned result => exact h
  | _ => exact h.elim

/-- One await past the `enabled` part. -/
theorem advance_tail {seed : UInt64} {task : Task} (h : Tail env name patch base cancelled s task) :
    Tail env name patch base cancelled (advanceAlone seed env s task).1 (advanceAlone seed env s task).2 := by
  unfold advanceAlone
  split
  · next hdown =>
    cases task with
    | respawning name' p spec bound =>
      obtain ⟨-, hrestarts, hbound, hstopped⟩ := h
      exact .inr ⟨⟨hdown, hrestarts, hbound⟩, hstopped⟩
    | enabling | rereading | binding | spawning | createSpawning => exact h.elim
    | _ =>
      refine proceed_tail h ?_
      intro _ _ _ _ heq
      cases heq
  · next hup =>
    refine proceed_tail h ?_
    intro _ _ _ _ _
    simpa using hup

/-! ## The whole call -/

/-- The phases of the `enabled` part. -/
def Head (env : UpdateEnv) (name : String) (patch : ProxyPatch) (entry : ManagedProxy) (cancelled : List Nat)
    (s : ControlState) : Task → Prop
  | .enabling name' patch' =>
    name' = name ∧ patch' = some patch ∧ patch.enabled = some true ∧ Untouched name entry cancelled s
  | .disabling name' patch' =>
    name' = name ∧ patch' = some patch ∧ patch.enabled = some false ∧ Untouched name entry cancelled s
  | .binding _ caller =>
    caller = .setEnabled name (some patch) ∧ patch.enabled = some true ∧ entry.running = false ∧ env.down = false ∧
      Untouched name entry cancelled s
  | .spawning _ caller | .storing _ _ caller =>
    caller = .setEnabled name (some patch) ∧ patch.enabled = some true ∧ entry.running = false ∧ env.down = false ∧
      env.listen.isOk ∧ Untouched name entry cancelled s
  | .stopping name' _ patch' =>
    name' = name ∧ patch' = some patch ∧ patch.enabled = some false ∧ entry.running = true ∧
      ∃ entry', s.proxies.get name = some entry' ∧ entry'.running = false
  | .returned (.error _) =>
    Untouched name entry cancelled s ∧ entry.running = false ∧ ¬ env.Flips patch entry
  | _ => False

/-- Where an update can be: in its `enabled` part, or past one that has changed
nothing, or past one that has started or stopped the proxy. -/
inductive UpdatePhase (env : UpdateEnv) (name : String) (patch : ProxyPatch) (entry : ManagedProxy)
    (cancelled : List Nat) (s : ControlState) (task : Task) : Prop
  | head (h : Head env name patch entry cancelled s task)
  | kept (h : Tail env name patch entry cancelled s task) (hkept : ¬ env.Flips patch entry)
  | flipped (base : ManagedProxy) (cancelled' : List Nat) (h : Tail env name patch base cancelled' s task)
      (hflips : env.Flips patch entry) (hbase : base.running ≠ entry.running)
      (hup : base.running = true → env.down = false)

variable {entry : ManagedProxy} {seed : UInt64}

theorem Untouched.here {entry' : ManagedProxy} (hget : s.proxies.get name = some entry') :
    Untouched name entry' s.cancelled s := ⟨⟨entry', hget, rfl⟩, rfl⟩

theorem Untouched.asked (h : Untouched name base cancelled s) (enabled : Bool) :
    Untouched name base cancelled (s.askEnabled name enabled) := by
  obtain ⟨entry', hget, hsame⟩ := h.entry
  refine ⟨⟨entry'.askedEnabled enabled, ?_, hsame⟩, h.2⟩
  rw [ControlState.askEnabled_proxies, Registry.get_modify, if_pos rfl, hget]
  rfl

/-- `set_enabled` finds the proxy as it is asked to be. -/
theorem asked_phase {enabled : Bool} (h : Untouched name entry cancelled s) (hpatch : patch.enabled = some enabled)
    (hsame : entry.running = enabled) :
    UpdatePhase env name patch entry cancelled ((s.askEnabled name enabled).enabledDone name (some patch)).1
      ((s.askEnabled name enabled).enabledDone name (some patch)).2 := by
  refine .kept (enabledDone_tail (h.asked enabled)) ?_
  rintro (⟨hoff, hrunning⟩ | ⟨hon, hstopped, -⟩)
  · rw [hpatch, Option.some.injEq] at hoff
    rw [hsame, hoff] at hrunning
    cases hrunning
  · rw [hpatch, Option.some.injEq] at hon
    rw [hsame, hon] at hstopped
    cases hstopped

theorem enabling_phase (h : Untouched name entry cancelled s) (hpatch : patch.enabled = some true) :
    let r := advanceAlone seed env s (.enabling name (some patch))
    UpdatePhase env name patch entry cancelled r.1 r.2 := by
  obtain ⟨entry', hget, -⟩ := h.entry
  obtain ⟨-, hrunning⟩ := h.spec hget
  dsimp only [advanceAlone]
  cases hdown : env.down with
  | true =>
    simp only [if_true, ControlState.proceedDown, hget]
    split
    · next hrun => exact asked_phase h hpatch (hrunning ▸ hrun)
    · next hrun =>
      refine .head ⟨h, by simpa [hrunning] using hrun, ?_⟩
      rintro (⟨hoff, -⟩ | ⟨-, -, hup, -⟩)
      · rw [hpatch] at hoff
        cases hoff
      · rw [hdown] at hup
        cases hup
  | false =>
    simp only [Bool.false_eq_true, if_false, ControlState.proceed, hget]
    split
    · next hrun => exact asked_phase h hpatch (hrunning ▸ hrun)
    · next hrun => exact .head ⟨rfl, hpatch, by simpa [hrunning] using hrun, hdown, h⟩

theorem disabling_phase (seed : UInt64) (h : Untouched name entry cancelled s) (hpatch : patch.enabled = some false) :
    let r := s.proceed seed (.disabling name (some patch)) env.listen
    UpdatePhase env name patch entry cancelled r.1 r.2 := by
  obtain ⟨entry', hget, -⟩ := h.entry
  obtain ⟨-, hrunning⟩ := h.spec hget
  dsimp only [ControlState.proceed]
  simp only [hget]
  split
  · next hrun => exact asked_phase h hpatch (by simpa [hrunning] using hrun)
  · next hrun =>
    refine .head ⟨rfl, rfl, hpatch, by simpa [hrunning] using hrun, entry'.disabled s.tokens, ?_, rfl⟩
    rw [ControlState.disable_proxies, Registry.get_modify, if_pos rfl, hget]
    rfl

/-- One await of the `enabled` part. -/
theorem advance_head {task : Task} (h : Head env name patch entry cancelled s task) :
    UpdatePhase env name patch entry cancelled (advanceAlone seed env s task).1 (advanceAlone seed env s task).2 := by
  cases task with
  | enabling name' patch' =>
    obtain ⟨rfl, rfl, hpatch, huntouched⟩ := h
    exact enabling_phase huntouched hpatch
  | disabling name' patch' =>
    obtain ⟨rfl, rfl, hpatch, huntouched⟩ := h
    unfold advanceAlone
    split
    · exact disabling_phase seed huntouched hpatch
    · exact disabling_phase seed huntouched hpatch
  | binding listen caller =>
    obtain ⟨rfl, hpatch, hstopped, hup, huntouched⟩ := h
    simp only [advanceAlone, hup, Bool.false_eq_true, if_false, ControlState.proceed, UpdateEnv.bind]
    split
    · next reason hbind =>
      refine .head ⟨huntouched, hstopped, ?_⟩
      rintro (⟨hoff, -⟩ | ⟨-, -, -, hbound⟩)
      · rw [hpatch] at hoff
        cases hoff
      · rw [hbind] at hbound
        cases hbound
    · next bound hbind => exact .head ⟨rfl, hpatch, hstopped, hup, by rw [hbind]; rfl, huntouched⟩
  | spawning bound caller =>
    obtain ⟨rfl, hpatch, hstopped, hup, hbound, huntouched⟩ := h
    simp only [advanceAlone, hup, Bool.false_eq_true, if_false, ControlState.proceed]
    exact .head ⟨rfl, hpatch, hstopped, hup, hbound, huntouched.same rfl rfl⟩
  | storing bound k caller =>
    obtain ⟨rfl, hpatch, hstopped, hup, hbound, huntouched⟩ := h
    obtain ⟨entry', hget, -⟩ := huntouched.entry
    simp only [advanceAlone, hup, Bool.false_eq_true, if_false, ControlState.proceed, Caller.name, hget]
    have hstored : (s.store name bound k).bump.proxies.get name = some (entry'.stored bound (s.tokenOf k) k) := by
      show (s.store name bound k).proxies.get name = _
      rw [ControlState.store_proxies, Registry.get_modify, if_pos rfl, hget]
      rfl
    refine .flipped _ _ (enabledDone_tail (.here hstored)) (.inr ⟨hpatch, hstopped, hup, hbound⟩) ?_ fun _ => hup
    simp [ManagedProxy.stored, hstopped]
  | stopping name' done patch' =>
    obtain ⟨rfl, rfl, hpatch, hrunning, entry', hget, hstopped⟩ := h
    have hgo : ∀ bind, UpdatePhase env name' patch entry cancelled
        (s.proceed seed (.stopping name' done (some patch)) bind).1
        (s.proceed seed (.stopping name' done (some patch)) bind).2 := by
      intro bind
      unfold ControlState.proceed
      dsimp only
      split
      · refine .flipped entry' s.cancelled (enabledDone_tail ((Untouched.here hget).same rfl rfl))
          (.inl ⟨hpatch, hrunning⟩) ?_ ?_
        · simp [hstopped, hrunning]
        · intro hrun
          rw [hstopped] at hrun
          cases hrun
      · exact .head ⟨rfl, rfl, hpatch, hrunning, entry', hget, hstopped⟩
    unfold advanceAlone
    split
    · exact hgo env.listen
    · exact hgo env.listen
  | returned result =>
    unfold advanceAlone
    split
    · exact .head h
    · exact .head h
  | _ => exact h.elim

/-- A step of the call or of a supervisor. -/
theorem aloneStep_phase {x : ControlState × Task} (h : UpdatePhase env name patch entry cancelled x.1 x.2) (o : AloneOp) :
    UpdatePhase env name patch entry cancelled (aloneStep seed env x o).1 (aloneStep seed env x o).2 := by
  cases o with
  | advance =>
    cases h with
    | head h => exact advance_head h
    | kept h hkept => exact .kept (advance_tail h) hkept
    | flipped base cancelled' h hflips hbase hup => exact .flipped base cancelled' (advance_tail h) hflips hbase hup
  | supervisor k turn =>
    simp only [aloneStep, ControlState.step]
    split
    · exact h
    · cases h with
      | head h => exact .head h
      | kept h hkept => exact .kept h hkept
      | flipped base cancelled' h hflips hbase hup => exact .flipped base cancelled' h hflips hbase hup

theorem start_phase (seed : UInt64) (h : Untouched name entry cancelled s) :
    let r := s.start seed (.update name patch)
    UpdatePhase env name patch entry cancelled r.1 r.2 := by
  dsimp only [ControlState.start]
  split
  · next hpatch => exact .head ⟨rfl, rfl, hpatch, h⟩
  · next hpatch => exact .head ⟨rfl, rfl, hpatch, h⟩
  · next hpatch =>
    refine .kept (patchFields_tail h rfl) ?_
    rintro (⟨hoff, -⟩ | ⟨hon, -⟩)
    · rw [hpatch] at hoff
      cases hoff
    · rw [hpatch] at hon
      cases hon

theorem updateAlone_phase (env : UpdateEnv) (patch : ProxyPatch) (seed : UInt64) (hget : s.proxies.get name = some entry) (ops : List AloneOp) :
    let r := updateAlone seed env s name patch ops
    UpdatePhase env name patch entry s.cancelled r.1 r.2 := by
  have hstep : ∀ (x : ControlState × Task) (o : AloneOp), UpdatePhase env name patch entry s.cancelled x.1 x.2 →
      UpdatePhase env name patch entry s.cancelled (aloneStep seed env x o).1 (aloneStep seed env x o).2 :=
    fun x o hx => aloneStep_phase hx o
  exact run_inv (fun x : ControlState × Task => UpdatePhase env name patch entry s.cancelled x.1 x.2) hstep
    (start_phase seed (.here hget)) ops

/-- An update that returns an error has left its proxy as it was, exactly if its
`enabled` part neither started nor stopped it and no restart met the shutdown. -/
theorem failed_update_iff (seed : UInt64) (env : UpdateEnv) (s : ControlState) (name : String) {entry : ManagedProxy}
    (hget : s.proxies.get name = some entry) (patch : ProxyPatch) (ops : List AloneOp) {s' : ControlState}
    {e : ControlError} (h : updateAlone seed env s name patch ops = (s', .returned (.error e))) :
    Untouched name entry s.cancelled s' ↔ ¬ (env.Flips patch entry ∨ env.Strands patch entry) := by
  have hphase := updateAlone_phase env patch seed hget ops
  rw [h] at hphase
  have hchanged : ∀ {b : Bool}, (∃ entry', s'.proxies.get name = some entry' ∧ entry'.running = b) → b ≠ entry.running →
      ¬ Untouched name entry s.cancelled s' := by
    rintro b ⟨entry', hget', hrun⟩ hne huntouched
    exact hne (hrun.symm.trans (huntouched.spec hget').2)
  cases hphase with
  | head hhead =>
    obtain ⟨huntouched, hstopped, hkept⟩ := hhead
    refine iff_of_true huntouched ?_
    rintro (hflips | ⟨-, hrestarts, -⟩)
    · exact hkept hflips
    · rw [hrestarts.running] at hstopped
      cases hstopped
  | kept htail hkept =>
    rcases htail with ⟨huntouched, hstrands⟩ | ⟨hstrands, hstopped⟩
    · exact iff_of_true huntouched fun h => h.elim hkept hstrands
    · refine iff_of_false (hchanged hstopped ?_) fun h => h (.inr hstrands)
      rw [hstrands.2.1.running]
      exact Bool.false_ne_true
  | flipped base cancelled' htail hflips hbase hup =>
    refine iff_of_false ?_ fun h => h (.inl hflips)
    rcases htail with ⟨huntouched, -⟩ | ⟨hstrands, -⟩
    · obtain ⟨entry', hget', hsame⟩ := huntouched.entry
      exact hchanged ⟨entry', hget', (huntouched.spec hget').2⟩ hbase
    · have := hup hstrands.2.1.running
      rw [hstrands.1] at this
      cases this

end

/-! ## A patch that starts the proxy and is refused -/

/-- A proxy that is imported and not started. -/
def importedState : ControlState :=
  run (ControlState.step 0) .empty [.begin (.importDefinition plainSpec), .advance 0 (.error "")]

/-- A connect timeout of zero, with or without `enabled`. -/
def zeroTimeout (enabled : Option Bool) : ProxyPatch where
  listen := none
  upstream := none
  enabled := enabled
  maxConnections := none
  connectTimeoutMs := some 0

def bindable : UpdateEnv where
  down := false
  listen := .ok plainSpec.listen
  replacement := .ok plainSpec.listen

/-- Without `enabled` the refusal comes before anything is written. -/
theorem failed_update_untouched : ∃ entry, importedState.proxies.get "p" = some entry ∧
    Untouched "p" entry importedState.cancelled (updateAlone 0 bindable importedState "p" (zeroTimeout none) []).1 := by
  refine ⟨_, rfl, (failed_update_iff 0 bindable importedState "p" rfl (zeroTimeout none) [] rfl).2 ?_⟩
  rintro ((⟨h, -⟩ | ⟨h, -⟩) | ⟨h, -⟩)
  · cases h
  · cases h
  · cases h

/-- With it the proxy has been started by then. -/
theorem refused_update_starts :
    ¬ ∀ (seed : UInt64) (env : UpdateEnv) (s : ControlState) (name : String) (entry : ManagedProxy),
        s.proxies.get name = some entry → ∀ (patch : ProxyPatch) (ops : List AloneOp) (s' : ControlState) (e : ControlError),
          updateAlone seed env s name patch ops = (s', .returned (.error e)) →
            Untouched name entry s.cancelled s' := by
  intro hall
  have huntouched := hall 0 bindable importedState "p" _ rfl (zeroTimeout (some true))
    [.advance, .advance, .advance, .advance] _ _ rfl
  obtain ⟨entry', hget, hsame⟩ := huntouched.entry
  cases hget
  exact absurd (congrArg (fun v => v.2.1) hsame) (by decide)

end Eggchaos
