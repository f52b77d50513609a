import Eggchaos.ControlLemmas
import Eggchaos.Lib.Workers
/-!
# Acceptors

The control plane as callers over slots and workers (`Lib.Workers`): a stored
proxy is a slot, a supervisor a worker that is live until it leaves its accept
loop, and a call has a supervisor in hand from its spawn until it is stored, or
from the moment its scope is given up until its end is awaited.

Every step is a step there (`step_pool`) unless a start stores its supervisor
over a proxy that runs already, or a supervisor is stored that has left its loop
before it found its entry. Without such steps a proxy that no lifecycle call is
working on has exactly the acceptor its entry refers to, or none
(`one_acceptor`).
-/

namespace Eggchaos
open Lib Lib.Workers

/-! ## Slots, workers and hands -/

def Supervisor.worker (v : Supervisor) : Worker String := ⟨v.name, v.token, v.live⟩

def ManagedProxy.slot (entry : ManagedProxy) : Slot := ⟨entry.running, entry.cancel, entry.done⟩

/-- The supervisor a call has in hand. -/
def Task.hold : Task → Hold String
  | .storing _ k caller => .spawned caller.name k
  | .restoring name _ _ _ k => .spawned name k
  | .inserting spec _ k => .spawned spec.name k
  | .abandoning name k _ _ => .awaiting name (some k)
  | .stopping name done _ | .draining name _ _ _ done | .removed name done => .awaiting name done
  | _ => .nothing

theorem Task.Resumed.hold {task : Task} (h : task.Resumed) : task.hold = .nothing := by
  cases h <;> rfl

namespace ControlState

/-- The slots and workers of a state, with these hands. -/
def poolWith (s : ControlState) (hold : Nat → Hold String) : Pool String where
  slot name := (s.proxies.get name).map ManagedProxy.slot
  worker k := s.supervisors[k]?.map Supervisor.worker
  tokens := s.tokens
  cancelled := { token | token ∈ s.cancelled }
  hold

/-- What each call has in hand. -/
def hands (s : ControlState) (i : Nat) : Hold String := (s.calls[i]?.map (·.task.hold)).getD .nothing

def pool (s : ControlState) : Pool String := s.poolWith s.hands

variable {s : ControlState} {hold : Nat → Hold String}

theorem Regenerated.poolWith {s' : ControlState} (h : Regenerated s s') : s'.poolWith hold = s.poolWith hold := by
  simp only [ControlState.poolWith, h.proxies, h.supervisors, h.tokens, h.cancelled]

/-! ## The registry as slots -/

/-- A change of an entry that leaves its handles alone. -/
theorem poolWith_modify {name : String} {f : ManagedProxy → ManagedProxy} (hf : ∀ entry, (f entry).slot = entry.slot) :
    ({ s with proxies := s.proxies.modify name f } : ControlState).poolWith hold = s.poolWith hold := by
  simp only [poolWith, Pool.mk.injEq, and_true]
  funext n
  rw [Registry.get_modify]
  split
  · cases s.proxies.get n with
    | none => rfl
    | some entry => exact congrArg some (hf entry)
  · rfl

theorem poolWith_clear (s : ControlState) : s.clear.poolWith hold = s.poolWith hold := by
  simp only [poolWith, clear, Pool.mk.injEq, and_true]
  funext n
  rw [Registry.get_map]
  cases s.proxies.get n with
  | none => rfl
  | some entry => rfl

theorem slot_modify {r : Registry} {name : String} {entry : ManagedProxy} (hget : r.get name = some entry)
    (f : ManagedProxy → ManagedProxy) :
    (fun n => ((r.modify name f).get n).map ManagedProxy.slot) =
      Function.update (fun n => (r.get n).map ManagedProxy.slot) name (some (f entry).slot) := by
  funext n
  rw [Registry.get_modify, Function.update_apply]
  split
  · next hn =>
    subst hn
    rw [hget]
    rfl
  · rfl

theorem slot_insert {r : Registry} {name : String} (hget : r.get name = none) (entry : ManagedProxy) :
    (fun n => ((r.insert name entry).get n).map ManagedProxy.slot) =
      Function.update (fun n => (r.get n).map ManagedProxy.slot) name (some entry.slot) := by
  funext n
  rw [Registry.get_insert, Function.update_apply]
  by_cases hn : n = name
  · subst hn
    simp [hget]
  · simp [hn, Ne.symm hn]

theorem slot_remove (r : Registry) (name : String) :
    (fun n => ((r.remove name).get n).map ManagedProxy.slot) =
      Function.update (fun n => (r.get n).map ManagedProxy.slot) name none := by
  funext n
  rw [Registry.get_remove, Function.update_apply]
  split <;> rfl

theorem cancelled_cons (token : Nat) (cancelled : List Nat) :
    { t | t ∈ token :: cancelled } = insert token { t | t ∈ cancelled } := by
  ext t
  simp

theorem worker_append (supervisors : List Supervisor) (v : Supervisor) :
    (fun k => (supervisors ++ [v])[k]?.map Supervisor.worker) =
      Function.update (fun k => supervisors[k]?.map Supervisor.worker) supervisors.length (some v.worker) := by
  funext k
  rw [Function.update_apply]
  split
  · next hk =>
    subst hk
    simp
  · next hk =>
    rcases Nat.lt_or_gt_of_ne hk with hlt | hgt
    · simp [List.getElem?_append_left hlt]
    · rw [List.getElem?_append_right hgt.le, List.getElem?_eq_none (by simp; omega), List.getElem?_eq_none hgt.le]

theorem worker_set {supervisors : List Supervisor} {k : Nat} {v : Supervisor} (hv : supervisors[k]? = some v)
    (next : Supervisor) :
    (fun j => (supervisors.set k next)[j]?.map Supervisor.worker) =
      Function.update (fun j => supervisors[j]?.map Supervisor.worker) k (some next.worker) := by
  funext j
  rw [Function.update_apply, List.getElem?_set]
  obtain ⟨hlt, -⟩ := List.getElem?_eq_some_iff.1 hv
  by_cases hjk : j = k
  · simp [hjk, hlt]
  · simp [hjk, Ne.symm hjk]

/-! ## Steps -/

/-- The proxy does not run, and the supervisor is still in its accept loop. -/
def MayStore (s : ControlState) (name : String) (k : Nat) : Prop :=
  (∀ entry ∈ s.proxies.get name, entry.running = false) ∧ s.supervisors[k]?.any (·.live)

instance (s : ControlState) (name : String) (k : Nat) : Decidable (s.MayStore name k) := instDecidableAnd

/-- A call that stores its supervisor may. -/
def StoresSafely (s : ControlState) : Task → Prop
  | .storing _ k caller => (s.proxies.get caller.name).isSome → s.MayStore caller.name k
  | .restoring name _ _ _ k => (s.proxies.get name).isSome → s.MayStore name k
  | .inserting spec _ k =>
    (s.proxies.get spec.name).isNone → s.proxies.length < maxStreamProxies → s.MayStore spec.name k
  | _ => True

instance (s : ControlState) (task : Task) : Decidable (s.StoresSafely task) := by
  unfold StoresSafely
  split <;> infer_instance

theorem joined_not_live {k : Nat} {v : Supervisor} (hjoined : s.joined (some k)) (hv : s.supervisors[k]? = some v) :
    v.live = false := by
  simp only [joined, hv, Option.any_some, decide_eq_true_eq] at hjoined
  simp [Supervisor.live, hjoined]

section Proceed

variable {i : Nat} {name : String}

/-- A call that has nothing in hand leaves slots and workers as they are. -/
theorem step_quiet {s' : ControlState} (hhold : hold i = .nothing) (hsame : s'.poolWith hold = s.poolWith hold) :
    Step (s.poolWith hold) (s'.poolWith (Function.update hold i .nothing)) := by
  rw [← hhold, Function.update_eq_self, hsame]
  exact .stay _

/-- A call goes on when the supervisor it awaits has finished. -/
theorem step_joined {s' : ControlState} {done : Option Nat} (hhold : hold i = .awaiting name done)
    (hjoined : s.joined done) (hsame : ∀ hold, s'.poolWith hold = s.poolWith hold) :
    Step (s.poolWith hold) (s'.poolWith (Function.update hold i .nothing)) := by
  rw [hsame]
  refine Step.release (s.poolWith hold) i name done hhold ?_
  rintro k w rfl hw
  simp only [poolWith, Option.map_eq_some_iff] at hw
  obtain ⟨v, hv, rfl⟩ := hw
  exact joined_not_live hjoined hv

theorem step_waiting {h' : Hold String} (hi : hold i = h') : Step (s.poolWith hold) (s.poolWith (Function.update hold i h')) := by
  rw [← hi, Function.update_eq_self]
  exact .stay _

theorem step_spawn (hhold : hold i = .nothing) :
    Step (s.poolWith hold) ((s.spawn name).poolWith (Function.update hold i (.spawned name s.supervisors.length))) := by
  have hstep := Step.spawn (s.poolWith hold) i name s.supervisors.length hhold (by simp [poolWith])
  simp only [poolWith, spawn] at hstep ⊢
  rw [worker_append]
  exact hstep

theorem step_abandon (h : Accounted (s.poolWith hold)) {k : Nat} (hhold : hold i = .spawned name k) :
    Step (s.poolWith hold)
      ((s.cancel (s.tokenOf k)).poolWith (Function.update hold i (.awaiting name (some k)))) := by
  obtain ⟨w, hw, -⟩ := h.spawned i name k hhold
  have hstep := Step.abandon (s.poolWith hold) i name k w hhold hw
  simp only [poolWith, Option.map_eq_some_iff] at hw
  obtain ⟨v, hv, rfl⟩ := hw
  simp only [poolWith, cancel, tokenOf, hv, Option.map_some, Option.getD_some, cancelled_cons] at hstep ⊢
  exact hstep

/-- A supervisor is stored in the entry of its proxy. -/
theorem step_store {r : Registry} {entry : ManagedProxy} {k : Nat} (hhold : hold i = .spawned name k)
    (hmay : s.MayStore name k) (hslot : entry.slot = ⟨true, s.tokenOf k, some k⟩)
    (hr : (fun n => (r.get n).map ManagedProxy.slot) =
      Function.update (fun n => (s.proxies.get n).map ManagedProxy.slot) name (some entry.slot)) :
    Step (s.poolWith hold) (({ s with proxies := r } : ControlState).poolWith (Function.update hold i .nothing)) := by
  obtain ⟨hidle, hsome⟩ := hmay
  obtain ⟨v, hv, hlive⟩ := (Option.any_eq_true _ _).1 hsome
  have hstep := Step.store (s.poolWith hold) i name k v.worker hhold (by simp [poolWith, hv]) hlive (by
    intro c hc
    simp only [poolWith, Option.map_eq_some_iff] at hc
    obtain ⟨entry, hget, rfl⟩ := hc
    exact hidle entry hget)
  simp only [poolWith] at hstep ⊢
  rw [hr, hslot]
  simp only [tokenOf, hv, Option.map_some, Option.getD_some]
  exact hstep

theorem step_retire {entry : ManagedProxy} {f : ManagedProxy → ManagedProxy} (hhold : hold i = .nothing)
    (hget : s.proxies.get name = some entry) (hrun : entry.running)
    (hf : (f entry).slot = ⟨false, s.tokens, entry.done⟩) :
    Step (s.poolWith hold) (({ s with
      proxies := s.proxies.modify name f
      tokens := s.tokens + 1
      cancelled := entry.cancel :: s.cancelled } : ControlState).poolWith
        (Function.update hold i (.awaiting name entry.done))) := by
  have hstep := Step.retire (s.poolWith hold) i name entry.slot hhold (by simp [poolWith, hget]) hrun
  simp only [poolWith, cancelled_cons] at hstep ⊢
  rw [slot_modify hget, hf]
  exact hstep

theorem step_remove {entry : ManagedProxy} (hhold : hold i = .nothing) (hget : s.proxies.get name = some entry) :
    Step (s.poolWith hold)
      ((s.delete name entry).poolWith (Function.update hold i (.awaiting name entry.done))) := by
  have hstep := Step.remove (s.poolWith hold) i name entry.slot hhold (by simp [poolWith, hget])
  simp only [poolWith, delete, cancelled_cons] at hstep ⊢
  rw [slot_remove]
  exact hstep

theorem step_import {spec : ProxySpec} (hhold : hold i = .nothing) (hget : s.proxies.get spec.name = none) :
    Step (s.poolWith hold) ((s.insertStopped spec).poolWith (Function.update hold i .nothing)) := by
  have hstep := Step.addStopped (s.poolWith hold) spec.name (by simp [poolWith, hget])
  rw [← hhold, Function.update_eq_self]
  simp only [poolWith, insertStopped] at hstep ⊢
  rw [slot_insert hget]
  exact hstep

theorem Task.hold_of_leaves {r : Registry} {task : Task} (h : task.Leaves r) : task.hold = .nothing := by
  cases task <;> first | rfl | exact h.elim

theorem Task.hold_of_awaits {task : Task} {done : Option Nat} (h : task.awaits = some (name, done)) :
    task.hold = .awaiting name done := by
  cases task <;> cases h <;> rfl

/-- What a call does between two awaits is a step of slots and workers. -/
theorem Proceeds.pool {seed : UInt64} {task : Task} {out : ControlState × Task} (hp : Proceeds seed s task out)
    (h : Accounted (s.poolWith hold)) (hi : hold i = task.hold) (hok : s.StoresSafely task) :
    Step (s.poolWith hold) (out.1.poolWith (Function.update hold i out.2.hold)) := by
  cases hp with
  | leaves hleaves hs ht =>
    rw [ht.hold]
    exact step_quiet (hi.trans (Task.hold_of_leaves hleaves)) hs.poolWith
  | returned => exact step_waiting hi
  | waits => exact step_waiting hi
  | joined hawaits hjoined hs ht =>
    rw [ht.hold]
    exact step_joined (hi.trans (Task.hold_of_awaits hawaits)) hjoined fun hold => hs.poolWith
  | drained hjoined => exact step_joined hi hjoined fun hold => rfl
  | foundRunning _ _ hs ht | foundStopped _ _ hs ht | writes _ hs ht =>
    rw [ht.hold]
    exact step_quiet hi (hs.poolWith.trans (poolWith_modify fun entry => rfl))
  | changes _ hs ht =>
    rw [ht.hold]
    refine step_quiet hi (hs.poolWith.trans (poolWith_modify fun entry => ?_))
    unfold ManagedProxy.changed
    split <;> rfl
  | clears hs ht =>
    rw [ht.hold]
    exact step_quiet hi (hs.poolWith.trans s.poolWith_clear)
  | disables hget hrun | releases hget hrun => exact step_retire hi hget hrun rfl
  | spawns | respawns | createSpawns => exact step_spawn hi
  | abandonsStart | abandonsRestart | abandonsCreate => exact step_abandon h hi
  | stores hget hs ht | restores hget hs ht =>
    rw [ht.hold, hs.poolWith]
    exact step_store hi (hok (by simp [hget])) rfl (slot_modify hget _)
  | inserts hfree hroom hs ht =>
    rw [ht.hold, hs.poolWith]
    exact step_store hi (hok (by simp [hfree]) hroom) rfl (slot_insert hfree _)
  | imports hfree hs ht =>
    rw [ht.hold, hs.poolWith]
    exact step_import hi hfree
  | removes hget => exact step_remove hi hget
  | enables | rereads | bound | clones | clonesRestart | prebound | checks | createBound => exact step_quiet hi rfl

end Proceed

variable {seed : UInt64}

theorem hands_append (s : ControlState) (request : ControlRequest) (task : Task) (htask : task.hold = .nothing) :
    ({ s with calls := s.calls ++ [⟨request, task⟩] } : ControlState).hands = s.hands := by
  funext i
  simp only [hands]
  rcases Nat.lt_trichotomy i s.calls.length with hlt | rfl | hgt
  · rw [List.getElem?_append_left hlt]
  · simp [htask]
  · rw [List.getElem?_append_right hgt.le, List.getElem?_eq_none (by simp; omega), List.getElem?_eq_none hgt.le]

theorem hands_congr {s' : ControlState} (h : s'.calls = s.calls) : s'.hands = s.hands := by
  funext i
  simp only [hands, h]

theorem hands_set {i : Nat} {call : ControlCall} (hcall : s.calls[i]? = some call) (task : Task) :
    ({ s with calls := s.calls.set i { call with task } } : ControlState).hands =
      Function.update s.hands i task.hold := by
  funext j
  obtain ⟨hlt, -⟩ := List.getElem?_eq_some_iff.1 hcall
  rw [Function.update_apply]
  simp only [hands, List.getElem?_set]
  by_cases hji : j = i
  · simp [hji, hlt]
  · simp [hji, Ne.symm hji]

theorem start_hold (s : ControlState) (request : ControlRequest) : (s.start seed request).2.hold = .nothing := by
  unfold start
  cases request with
  | create spec | importDefinition spec | change name change =>
    dsimp only
    split <;> rfl
  | setEnabled name enabled => cases enabled <;> rfl
  | update name patch =>
    dsimp only
    split
    · rfl
    · rfl
    · exact (patchFields_resumed _ _ _).hold
  | startAll | delete name | reset => rfl

/-- A supervisor that leaves its loop does so because its entry is gone or its
scope cancelled. -/
theorem turn_pool {k : Nat} {v : Supervisor} (hv : s.supervisors[k]? = some v) (turn : Turn) :
    let next := Supervisor.turn v (s.proxies.get v.name).isSome (v.token ∈ s.cancelled) turn
    Step (s.poolWith hold) (({ s with supervisors := s.supervisors.set k next } : ControlState).poolWith hold) := by
  have hworker : (s.poolWith hold).worker k = some v.worker := by simp [poolWith, hv]
  -- a turn that stays in the loop, or is out of it already
  have stay : ∀ next : Supervisor, next.worker = v.worker →
      Step (s.poolWith hold) (({ s with supervisors := s.supervisors.set k next } : ControlState).poolWith hold) := by
    intro next hnext
    have hsame : ({ s with supervisors := s.supervisors.set k next } : ControlState).poolWith hold =
        s.poolWith hold := by
      simp only [poolWith]
      rw [worker_set hv, hnext, Function.update_eq_self_iff.2 (by simp [hv])]
    rw [hsame]
    exact .stay _
  have leave : (s.proxies.get v.name).isSome = false ∨ v.token ∈ s.cancelled →
      Step (s.poolWith hold)
        (({ s with supervisors := s.supervisors.set k { v with phase := .closing } } : ControlState).poolWith hold) := by
    intro hwhy
    have hstep := Step.leave (s.poolWith hold) k v.worker hworker (by
      rcases hwhy with hnone | hmem
      · exact .inl (by simpa [poolWith, Supervisor.worker] using hnone)
      · exact .inr hmem)
    simp only [poolWith] at hstep ⊢
    rw [worker_set hv]
    exact hstep
  dsimp only
  cases turn with
  | look =>
    simp only [Supervisor.turn]
    split
    · next hphase =>
      split
      · next hwhy => exact leave (by simpa using hwhy)
      · exact stay _ (by simp [Supervisor.worker, Supervisor.live, hphase])
    · exact stay _ rfl
  | observe =>
    simp only [Supervisor.turn]
    split
    · next hwhy =>
      simp only [Bool.and_eq_true, decide_eq_true_eq] at hwhy
      exact leave (.inr hwhy.2)
    · exact stay _ rfl
  | accepted =>
    simp only [Supervisor.turn]
    split
    · next hphase => exact stay _ (by simp [Supervisor.worker, Supervisor.live, hphase])
    · exact stay _ rfl
  | finish =>
    simp only [Supervisor.turn]
    split
    · next hphase => exact stay _ (by simp [Supervisor.worker, Supervisor.live, hphase])
    · exact stay _ rfl

/-- A call that goes on in this step stores its supervisor safely. -/
theorem step_pool (h : Accounted s.pool) {o : Op}
    (hok : ∀ i bind call, o = .advance i bind → s.calls[i]? = some call → s.StoresSafely call.task) :
    Step s.pool (s.step seed o).pool := by
  cases o with
  | begin request =>
    have hsame : (s.step seed (.begin request)).pool = s.pool := by
      have hreg := s.start_regenerated seed request
      simp only [step, pool, hands_append _ _ _ (s.start_hold request), hands_congr hreg.calls]
      exact hreg.poolWith
    rw [hsame]
    exact .stay _
  | advance i bind =>
    simp only [step]
    split
    · exact .stay _
    · next call hcall =>
      have hhold : s.hands i = call.task.hold := by simp [hands, hcall]
      have hstep := (s.proceed_cases seed call.task bind).pool h hhold (hok i bind call rfl hcall)
      have hcalls := s.proceed_calls seed call.task bind
      have hcall' : (s.proceed seed call.task bind).1.calls[i]? = some call := by rw [hcalls, hcall]
      simp only [pool, hands_set hcall', hands_congr hcalls]
      exact hstep
  | supervisor k turn =>
    simp only [step]
    split
    · exact .stay _
    · next v hv => exact turn_pool hv turn

end ControlState

/-! ## One acceptor or none -/

def Caller.touches : Caller → String → Prop
  | .setEnabled name _, n => name = n
  | .startAll _ _ _, _ | .reset _ _ _, _ => True

/-- The call is at work on the lifecycle of this proxy. `start_all` and `reset`
are at work on every proxy; fault operations are on none. -/
def Task.touches : Task → String → Prop
  | .enabling name _, n | .disabling name _, n | .stopping name _ _, n | .viewing name _, n | .cloning name _, n
  | .writingBack name _ _, n | .prebinding name _ _, n | .releasing name _ _ _, n | .draining name _ _ _ _, n
  | .respawning name _ _ _, n | .restoring name _ _ _ _, n | .removing name, n | .removed name _, n
  | .abandoning name _ _ none, n => name = n
  | .rereading caller, n | .binding _ caller, n | .spawning _ caller, n | .storing _ _ caller, n => caller.touches n
  | .abandoning name _ _ (some caller), n => name = n ∨ caller.touches n
  | .checking spec, n | .createBinding spec, n | .createSpawning spec _, n | .inserting spec _ _, n
  | .importing spec, n => spec.name = n
  | .listing, _ | .clearing, _ => True
  | .changing _ _, _ | .returned _, _ => False

theorem Caller.touches_name (caller : Caller) : caller.touches caller.name := by
  cases caller <;> trivial

/-- A call is at work on the proxy whose supervisor it has in hand. -/
theorem Task.touches_hold {task : Task} {name : String} {k : Nat} (h : task.hold.worker = some (name, k)) :
    task.touches name := by
  cases task with
  | storing bound j caller =>
    cases h
    exact caller.touches_name
  | restoring | inserting =>
    cases h
    rfl
  | abandoning name' j e caller =>
    cases h
    cases caller with
    | none => rfl
    | some caller => exact .inl rfl
  | stopping name' done patch | draining name' p spec bound done | removed name' done =>
    cases done with
    | none => cases h
    | some j =>
      cases h
      rfl
  | _ => cases h

namespace ControlState

/-- A lifecycle operation on the proxy is in progress. -/
def InProgress (s : ControlState) (name : String) : Prop := ∃ call ∈ s.calls, call.task.touches name

/-- No supervisor of the proxy is in its accept loop. -/
def NoAcceptor (s : ControlState) (name : String) : Prop := ∀ v ∈ s.supervisors, v.name = name → v.live = false

/-- A proxy that runs has one supervisor in its accept loop, the one its entry
refers to; any other has none. -/
def OneAcceptor (s : ControlState) (name : String) : Prop :=
  match s.proxies.get name with
  | none => s.NoAcceptor name
  | some entry =>
    if entry.running then
      ∃ k v, entry.done = some k ∧ s.supervisors[k]? = some v ∧ v.name = name ∧ v.live ∧ v.token = entry.cancel ∧
        ∀ j w, s.supervisors[j]? = some w → w.name = name → w.live → j = k
    else s.NoAcceptor name

/-- The proxy whose `set_enabled(false)` or `delete_proxy` returns `Ok` when the
call goes on. -/
def stopReturns (s : ControlState) : Task → Option String
  | .disabling name _ => if (s.proxies.get name).any (!·.running) then some name else none
  | .stopping name done _ | .removed name done => if s.joined done then some name else none
  | _ => none

/-- The proxy has not been started again, and no other call has a supervisor of
it in hand. -/
def StopsAlone (s : ControlState) (i : Nat) (name : String) : Prop :=
  (∀ entry ∈ s.proxies.get name, entry.running = false) ∧
    ∀ j < s.calls.length, (s.hands j).worker.map (·.1) = some name → j = i

instance (s : ControlState) (i : Nat) (name : String) : Decidable (s.StopsAlone i name) := instDecidableAnd

/-- What a call needs when it goes on: a supervisor is stored only while it is in
its accept loop and over a proxy that does not run, and a stop returns alone. -/
def CallUndisturbed (s : ControlState) (i : Nat) (task : Task) : Prop :=
  s.StoresSafely task ∧ ∀ name ∈ s.stopReturns task, s.StopsAlone i name

instance (s : ControlState) (i : Nat) (task : Task) : Decidable (s.CallUndisturbed i task) := instDecidableAnd

def Undisturbed (s : ControlState) : Op → Prop
  | .advance i _ => ∀ call ∈ s.calls[i]?, s.CallUndisturbed i call.task
  | .begin _ | .supervisor _ _ => True

instance (s : ControlState) : ∀ o : Op, Decidable (s.Undisturbed o)
  | .advance i _ => inferInstanceAs (Decidable (∀ call ∈ s.calls[i]?, s.CallUndisturbed i call.task))
  | .begin _ | .supervisor _ _ => .isTrue trivial

variable {s : ControlState} {seed : UInt64}

theorem accounted_empty : Accounted (ControlState.empty).pool := by
  constructor <;> simp [pool, poolWith, hands, empty, Registry.get, Hold.worker]

/-- The hands of a pool are those of the calls. -/
theorem pool_hold {i : Nat} {name : String} {k : Nat} (h : (s.pool.hold i).worker = some (name, k)) :
    ∃ call, s.calls[i]? = some call ∧ call.task.hold.worker = some (name, k) := by
  simp only [pool, poolWith, hands] at h
  cases hcall : s.calls[i]? with
  | none =>
    rw [hcall] at h
    cases h
  | some call =>
    rw [hcall] at h
    exact ⟨call, rfl, h⟩

theorem noAcceptor_of_unserved (h : Accounted s.pool) {name : String}
    (hhold : ∀ i k, (s.pool.hold i).worker ≠ some (name, k))
    (hidle : ∀ entry, s.proxies.get name = some entry → entry.running = false) : s.NoAcceptor name := by
  intro v hv hname
  obtain ⟨k, hk⟩ := List.mem_iff_getElem?.1 hv
  refine h.unserved hhold ?_ (w := v.worker) (k := k) (by simp [pool, poolWith, hk]) hname
  intro c hc
  simp only [pool, poolWith, Option.map_eq_some_iff] at hc
  obtain ⟨entry, hget, rfl⟩ := hc
  exact hidle entry hget

theorem oneAcceptor_of_accounted (h : Accounted s.pool) {name : String} (hidle : ¬ s.InProgress name) :
    s.OneAcceptor name := by
  have hhold : ∀ i k, (s.pool.hold i).worker ≠ some (name, k) := by
    intro i k hi
    obtain ⟨call, hcall, hheld⟩ := pool_hold hi
    exact hidle ⟨call, List.mem_of_getElem? hcall, Task.touches_hold hheld⟩
  unfold OneAcceptor
  split
  · next hnone =>
    refine noAcceptor_of_unserved h hhold fun entry hget => ?_
    rw [hnone] at hget
    cases hget
  · next entry hget =>
    split
    · next hrun =>
      obtain ⟨k, w, hdone, hw, hname, hlive, htoken, honly⟩ :=
        h.served hhold (c := entry.slot) (by simp [pool, poolWith, hget]) hrun
      simp only [pool, poolWith, Option.map_eq_some_iff] at hw
      obtain ⟨v, hv, rfl⟩ := hw
      refine ⟨k, v, hdone, hv, hname, hlive, htoken, ?_⟩
      intro j u hu hun hul
      exact honly j u.worker (by simp [pool, poolWith, hu]) hun hul
    · next hrun =>
      refine noAcceptor_of_unserved h hhold fun entry' hget' => ?_
      rw [hget] at hget'
      cases hget'
      simpa using hrun

theorem stopReturns_joined {n name : String} {done : Option Nat}
    (h : (if s.joined done then some n else none) = some name) : n = name ∧ s.joined done := by
  split at h
  · next hjoined =>
    cases h
    exact ⟨rfl, hjoined⟩
  · cases h

/-- A stop that returns alone leaves no acceptor. -/
theorem noAcceptor_of_stop (h : Accounted s.pool) {i : Nat} {call : ControlCall} {name : String}
    (hcall : s.calls[i]? = some call) (hreturns : s.stopReturns call.task = some name) (halone : s.StopsAlone i name) :
    s.NoAcceptor name := by
  intro v hv hname
  obtain ⟨k, hk⟩ := List.mem_iff_getElem?.1 hv
  cases hl : v.live with
  | false => rfl
  | true =>
    exfalso
    subst hname
    rcases h.live k v.worker (by simp [pool, poolWith, hk]) hl with ⟨c, hc, hrun, -⟩ | ⟨j, hj⟩
    · simp only [pool, poolWith, Option.map_eq_some_iff] at hc
      obtain ⟨entry, hget, rfl⟩ := hc
      have hidle := halone.1 entry hget
      simp only [ManagedProxy.slot, hidle] at hrun
      cases hrun
    · -- only the call itself can have it in hand, and that supervisor has finished
      obtain ⟨call', hcall', hheld⟩ := pool_hold hj
      have hji := halone.2 j (List.getElem?_eq_some_iff.1 hcall').1 (by simp [hands, hcall', hheld, Supervisor.worker])
      subst hji
      rw [hcall] at hcall'
      cases hcall'
      have hjoined : s.joined (some k) := by
        obtain ⟨request, task⟩ := call
        cases task with
        | stopping n done patch | removed n done =>
          cases done with
          | none => cases hheld
          | some k' =>
            cases hheld
            exact (stopReturns_joined hreturns).2
        | disabling n patch => cases hheld
        | _ => cases hreturns
      rw [joined_not_live hjoined hk] at hl
      cases hl

/-- The step that returns from a stop moves no supervisor. -/
theorem proceed_stop_supervisors {name : String} {task : Task} (h : s.stopReturns task = some name)
    (bind : Except String SocketAddr) : (s.proceed seed task bind).1.supervisors = s.supervisors := by
  unfold proceed
  cases task with
  | disabling n patch =>
    simp only [stopReturns] at h
    split at h
    · next hany =>
      obtain ⟨entry, hget, hrun⟩ := (Option.any_eq_true _ _).1 hany
      simp only [hget, hrun, if_true]
      exact (enabledDone_regenerated _ _ _).supervisors
    · cases h
  | stopping n done patch =>
    simp only [(stopReturns_joined h).2, if_true]
    exact (enabledDone_regenerated _ _ _).supervisors
  | removed n done =>
    simp only [(stopReturns_joined h).2, if_true]
    rfl
  | _ => cases h

end ControlState

open ControlState in
/-- In every run whose steps are undisturbed: in every state a proxy that no
lifecycle operation is working on has exactly the acceptor its entry refers to,
or none if it does not run, and whenever `set_enabled(false)` or `delete_proxy`
returns `Ok` no supervisor of the proxy is left in its accept loop. -/
theorem one_acceptor {seed : UInt64} {ops : List Op} (h : Along (step seed) Undisturbed .empty ops) :
    ∀ pre, pre <+: ops → let s := run (step seed) .empty pre
      (∀ name, ¬ s.InProgress name → s.OneAcceptor name) ∧
      ∀ i bind call name, pre ++ [.advance i bind] <+: ops → s.calls[i]? = some call →
        s.stopReturns call.task = some name → (s.step seed (.advance i bind)).NoAcceptor name := by
  intro pre hpre
  have haccounted : Accounted (run (step seed) .empty pre).pool := by
    obtain ⟨rest, rfl⟩ := hpre
    refine run_inv_along (fun s => Accounted s.pool) ?_ accounted_empty (along_append.1 h).1
    intro s o hs hok
    refine hs.step (step_pool hs ?_)
    rintro i bind call rfl hcall
    exact (hok call hcall).1
  refine ⟨fun name hidle => oneAcceptor_of_accounted haccounted hidle, ?_⟩
  intro i bind call name hnext hcall hreturns
  have hok : Undisturbed (run (step seed) .empty pre) (.advance i bind) := by
    obtain ⟨rest, rfl⟩ := hnext
    rw [List.append_assoc] at h
    exact (along_append.1 h).2.1
  have hnone := noAcceptor_of_stop haccounted hcall hreturns ((hok call hcall).2 name hreturns)
  simp only [step, hcall, NoAcceptor, proceed_stop_supervisors hreturns]
  exact hnone

/-! ## A stop, and a create that outruns itself -/

/-- A proxy is imported, enabled and disabled. -/
def stopOps : List ControlState.Op :=
  [.begin (.importDefinition plainSpec), .advance 0 (.error ""),
    .begin (.setEnabled "p" true), .advance 1 (.error ""), .advance 1 (.ok plainSpec.listen), .advance 1 (.error ""),
    .supervisor 0 .look, .advance 1 (.error ""),
    .begin (.setEnabled "p" false), .advance 2 (.error ""), .supervisor 0 .observe, .supervisor 0 .finish]

open ControlState in
theorem one_acceptor_stop : (run (step 0) .empty (stopOps ++ [.advance 2 (.error "")])).NoAcceptor "p" := by
  have halong : Along (step 0) Undisturbed .empty (stopOps ++ [.advance 2 (.error "")]) := by decide
  have hcall : ∃ call ∈ (run (step 0) .empty stopOps).calls[2]?,
      (run (step 0) .empty stopOps).stopReturns call.task = some "p" := by decide
  obtain ⟨call, hcall, hreturns⟩ := hcall
  have hstop := (one_acceptor halong stopOps (List.prefix_append _ _)).2 2 (.error "") call "p" (List.prefix_refl _)
    hcall hreturns
  rw [run_append]
  exact hstop

/-- The supervisor that `create_proxy` has spawned looks its entry up before the
entry is there. -/
def createOps : List ControlState.Op :=
  [.begin (.create plainSpec), .advance 0 (.error ""), .advance 0 (.ok plainSpec.listen), .advance 0 (.error ""),
    .supervisor 0 .look, .supervisor 0 .finish, .advance 0 (.error "")]

open ControlState in
/-- `create_proxy` returns `Ok` with a proxy that runs, and nothing accepts. -/
theorem create_outruns_entry :
    let s := run (step 0) .empty createOps
    (s.calls.all fun call => match call.task with
      | .returned (.ok _) => true
      | _ => false) ∧
    ¬ s.InProgress "p" ∧ (s.proxies.get "p").any (·.running) ∧ s.NoAcceptor "p" ∧ ¬ s.OneAcceptor "p" := by
  intro s
  have hreturned : s.calls.all fun call => match call.task with
      | .returned (.ok _) => true
      | _ => false := by decide
  have hrunning : (s.proxies.get "p").any (·.running) := by decide
  have hnone : s.NoAcceptor "p" := by
    have hall : ∀ v ∈ s.supervisors, v.live = false := by decide
    exact fun v hv _ => hall v hv
  refine ⟨hreturned, ?_, hrunning, hnone, ?_⟩
  · rintro ⟨call, hmem, htouches⟩
    have hcall := List.all_eq_true.1 hreturned call hmem
    split at hcall
    · next htask =>
      rw [htask] at htouches
      exact htouches
    · cases hcall
  · intro hone
    obtain ⟨entry, hget, hrun⟩ := (Option.any_eq_true _ _).1 hrunning
    simp only [OneAcceptor, hget, hrun, if_true] at hone
    obtain ⟨k, v, -, hv, hname, hlive, -⟩ := hone
    rw [hnone v (List.mem_of_getElem? hv) hname] at hlive
    cases hlive

end Eggchaos
