import Eggchaos.Lib.Runs
import Mathlib.Logic.Function.Basic
import Mathlib.Data.List.Range
/-!
# Datagram listeners

`create_proxy`, `enable_proxy`, `disable_proxy`, `update_proxy` and
`delete_proxy` of the datagram runtime on one name, as calls that go from one
section under the registry lock to the next. Any number of calls run at once, and
each step is one section of one call, or what it does between two sections.

A listener task is spawned outside the lock and stored by a later section. A
`ListenerOwner` that is dropped is not cancelled: its task runs on. Definitions
are numbered (`ProxyState`), and a task serves the one it was spawned for. Whether
a socket binds, and whether a call is rejected for its values, the number of
definitions or the active associations, is the environment's answer to the step.
-/

namespace Eggchaos
open Lib

/-- The fields that `update_proxy` changes and compares. -/
structure DatagramSpec where
  listen : Nat
  upstream : Nat
  maxAssociations : Nat
  associationIdleTimeout : Nat
deriving DecidableEq, Repr

/-- The arguments of `update_proxy`. -/
structure DatagramUpdate where
  listen : Option Nat := none
  upstream : Option Nat := none
  maxAssociations : Option Nat := none
  associationIdleTimeout : Option Nat := none
  enabled : Option Bool := none
deriving DecidableEq, Repr

/-- `ManagedProxy`, with its state and its owner's task by number. -/
structure ManagedDatagram where
  state : Nat
  listener : Option Nat
  cancelStart : Bool
deriving DecidableEq, Repr

structure ListenerTask where
  state : Nat
  cancelled : Bool
deriving DecidableEq, Repr

/-- The definition with the given values in place. -/
def DatagramUpdate.apply (values : DatagramUpdate) (spec : DatagramSpec) : DatagramSpec where
  listen := values.listen.getD spec.listen
  upstream := values.upstream.getD spec.upstream
  maxAssociations := values.maxAssociations.getD spec.maxAssociations
  associationIdleTimeout := values.associationIdleTimeout.getD spec.associationIdleTimeout

/-- What `update_proxy` works with: the state and whether it ran, as its first
section saw them, the definition it read afterwards, and the one it will write. -/
structure UpdatePlan where
  state : Nat
  running : Bool
  old : DatagramSpec
  next : DatagramSpec
  enabled : Option Bool
deriving DecidableEq, Repr

namespace UpdatePlan

def listenChanged (u : UpdatePlan) : Bool := u.next.listen ≠ u.old.listen
def desiredRunning (u : UpdatePlan) : Bool := u.enabled.getD u.running

/-- A replacement socket is bound first. -/
def prebinds (u : UpdatePlan) : Bool := u.desiredRunning && (!u.running || u.listenChanged)
def mustStopOld (u : UpdatePlan) : Bool := u.running && (!u.desiredRunning || u.listenChanged)

end UpdatePlan

/-- Where a call is, by what it does next. -/
inductive ListenerCall where
  | idle
  -- `create_proxy`
  | createBinding (spec : DatagramSpec)
  | createInserting (state : Nat)
  | createSpawning (state : Nat)
  | createAttaching (state task : Nat)
  -- `enable_proxy`
  | enableBinding (state : Nat)
  | enableSpawning (state : Nat)
  | enableAttaching (state task : Nat)
  /-- `disable_proxy` or `delete_proxy` with the owner it took. -/
  | stopping (task : Nat)
  -- `update_proxy`
  | updateReading (state : Nat) (running : Bool) (base : DatagramSpec) (values : DatagramUpdate)
  | updateBinding (plan : UpdatePlan)
  | updateTaking (plan : UpdatePlan)
  | updateStopping (plan : UpdatePlan) (task : Nat)
  | updateChecking (plan : UpdatePlan)
  | updateWriting (plan : UpdatePlan)
  | updateSpawning (state : Nat)
  | updateAttaching (state task : Nat)
deriving DecidableEq, Repr

/-- The task whose owner a call has in hand. -/
def ListenerCall.owner : ListenerCall → Option Nat
  | .createAttaching _ k | .enableAttaching _ k | .updateAttaching _ k | .stopping k | .updateStopping _ k => some k
  | _ => none

/-- The state and the task of an owner that is still to be stored. -/
def ListenerCall.spawned : ListenerCall → Option (Nat × Nat)
  | .createAttaching state k | .enableAttaching state k | .updateAttaching state k => some (state, k)
  | _ => none

structure ListenerState where
  managed : Option ManagedDatagram
  tasks : List ListenerTask
  /-- The number of states made so far, and their definitions. -/
  states : Nat
  spec : Nat → DatagramSpec
  calls : Nat → ListenerCall

inductive ListenerAct where
  | create (spec : DatagramSpec)
  | enable
  | disable
  | delete
  | update (values : DatagramUpdate)
  | advance

/-- A step of one caller, and whether the environment lets it go on. -/
structure ListenerOp where
  caller : Nat
  act : ListenerAct
  ok : Bool := true

namespace ListenerState

open Function (update)

/-- The call goes on at `next`. -/
def goes (s : ListenerState) (i : Nat) (next : ListenerCall) : ListenerState := { s with calls := update s.calls i next }

/-- `owner.cancel.cancel()`, after which the task is joined. -/
def cancel (s : ListenerState) (k : Nat) : ListenerState :=
  { s with tasks := s.tasks.modify k fun t => { t with cancelled := true } }

/-- `spawn_listener`. -/
def spawn (s : ListenerState) (state : Nat) : ListenerState := { s with tasks := s.tasks ++ [⟨state, false⟩] }

/-- The first section of a call. -/
def begin_ (s : ListenerState) (i : Nat) (ok : Bool) : ListenerAct → ListenerState
  | .create spec =>
    match s.managed with
    | some _ => s
    | none => if ok then s.goes i (.createBinding spec) else s
  | .enable =>
    match s.managed with
    | some m =>
      if m.listener.isSome then s
      else { s with managed := some { m with cancelStart := false } }.goes i (.enableBinding m.state)
    | none => s
  | .disable =>
    match s.managed with
    | some m =>
      match m.listener with
      | some k => { s with managed := some { m with listener := none } }.goes i (.stopping k)
      | none => { s with managed := some { m with cancelStart := true } }
    | none => s
  | .delete =>
    match s.managed with
    | some m =>
      match m.listener with
      | some k => { s with managed := none }.goes i (.stopping k)
      | none => { s with managed := none }
    | none => s
  | .update values =>
    match s.managed with
    | some m => s.goes i (.updateReading m.state m.listener.isSome (s.spec m.state) values)
    | none => s
  | .advance => s

/-- The last section of `create_proxy`. -/
def createAttach (s : ListenerState) (k : Nat) : ListenerState :=
  match s.managed with
  | some m => if m.cancelStart then s.cancel k else { s with managed := some { m with listener := some k } }
  | none => s.cancel k

/-- The last section of `enable_proxy`. Without the entry it returns and drops
the owner. -/
def enableAttach (s : ListenerState) (k : Nat) : ListenerState :=
  match s.managed with
  | some m =>
    if m.listener.isSome then s.cancel k
    else if m.cancelStart then s.cancel k
    else { s with managed := some { m with listener := some k } }
  | none => s

/-- The section of `update_proxy` that stores the replacement. -/
def updateAttach (s : ListenerState) (k : Nat) : ListenerState :=
  match s.managed with
  | some m => { s with managed := some { m with listener := some k } }
  | none => s.cancel k

/-- The next step of a call that is under way. -/
def advance (s : ListenerState) (i : Nat) (ok : Bool) : ListenerState :=
  match s.calls i with
  | .idle => s
  | .createBinding spec =>
    if ok then
      { s with states := s.states + 1, spec := update s.spec s.states spec }.goes i (.createInserting s.states)
    else s.goes i .idle
  | .createInserting state =>
    match s.managed with
    | some _ => s.goes i .idle
    | none =>
      if ok then { s with managed := some ⟨state, none, false⟩ }.goes i (.createSpawning state) else s.goes i .idle
  | .createSpawning state => (s.spawn state).goes i (.createAttaching state s.tasks.length)
  | .createAttaching _ k => (s.createAttach k).goes i .idle
  | .enableBinding state => if ok then s.goes i (.enableSpawning state) else s.goes i .idle
  | .enableSpawning state => (s.spawn state).goes i (.enableAttaching state s.tasks.length)
  | .enableAttaching _ k => (s.enableAttach k).goes i .idle
  | .stopping k => (s.cancel k).goes i .idle
  | .updateReading state running base values =>
    if ok then s.goes i (.updateBinding ⟨state, running, s.spec state, values.apply base, values.enabled⟩)
    else s.goes i .idle
  | .updateBinding plan => if plan.prebinds && !ok then s.goes i .idle else s.goes i (.updateTaking plan)
  | .updateTaking plan =>
    -- The active count is checked again before an old listener is stopped.
    if plan.mustStopOld then
      if ok then
        match s.managed with
        | some m =>
          match m.listener with
          | some k => { s with managed := some { m with listener := none } }.goes i (.updateStopping plan k)
          | none => s.goes i (.updateChecking plan)
        | none => s.goes i (.updateChecking plan)
      else s.goes i .idle
    else s.goes i (.updateChecking plan)
  | .updateStopping plan k => (s.cancel k).goes i (.updateChecking plan)
  | .updateChecking plan =>
    if s.spec plan.state = plan.old then s.goes i (.updateWriting plan) else s.goes i .idle
  | .updateWriting plan =>
    if ok then
      { s with spec := update s.spec plan.state plan.next }.goes i
        (if plan.prebinds then .updateSpawning plan.state else .idle)
    else s.goes i .idle
  | .updateSpawning state => (s.spawn state).goes i (.updateAttaching state s.tasks.length)
  | .updateAttaching _ k => (s.updateAttach k).goes i .idle

/-- One step of a caller: a new call if it has none, else its call's next one. -/
def step (s : ListenerState) (op : ListenerOp) : ListenerState :=
  match s.calls op.caller with
  | .idle => s.begin_ op.caller op.ok op.act
  | _ => s.advance op.caller op.ok

/-- A runtime without the name. -/
def start : ListenerState where
  managed := none
  tasks := []
  states := 0
  spec := fun _ => ⟨0, 0, 0, 0⟩
  calls := fun _ => .idle

/-! ## Owners -/

def Live (s : ListenerState) (k : Nat) : Prop := ∃ t, s.tasks[k]? = some t ∧ t.cancelled = false

/-- The listener tasks that are not cancelled. -/
def liveTasks (s : ListenerState) : List Nat :=
  (List.range s.tasks.length).filter fun k => s.tasks[k]?.any (!·.cancelled)

/-- The task whose owner the registry has. -/
def stored (s : ListenerState) : Option Nat := s.managed.bind (·.listener)

/-- Every live task has one owner, in the registry or in one call's hands; the one
in the registry is live and serves the entry's own state. -/
structure Attended (s : ListenerState) : Prop where
  live : ∀ k, s.Live k → s.stored = some k ∨ ∃ i, (s.calls i).owner = some k
  serving : ∀ m k, s.managed = some m → m.listener = some k → s.tasks[k]? = some ⟨m.state, false⟩
  spawned : ∀ i state k, (s.calls i).spawned = some (state, k) → s.tasks[k]? = some ⟨state, false⟩
  held : ∀ i k, (s.calls i).owner = some k → k < s.tasks.length ∧ s.stored ≠ some k
  once : ∀ i j k, (s.calls i).owner = some k → (s.calls j).owner = some k → i = j

/-- The steps that lose an owner or store one for another state: an attaching
section finds the entry gone (`enable_proxy`), another listener in it, or a new
entry under the name. -/
def Orphans (s : ListenerState) (op : ListenerOp) : Prop :=
  match s.calls op.caller, s.managed with
  | .createAttaching state _, some m => m.cancelStart = false ∧ (m.listener ≠ none ∨ m.state ≠ state)
  | .enableAttaching _ _, none => True
  | .enableAttaching state _, some m => m.listener = none ∧ m.cancelStart = false ∧ m.state ≠ state
  | .updateAttaching state _, some m => m.listener ≠ none ∨ m.state ≠ state
  | _, _ => False

section

variable {s : ListenerState} {i k : Nat} {next : ListenerCall}

theorem calls_goes (s : ListenerState) (i : Nat) (next : ListenerCall) (j : Nat) :
    (s.goes i next).calls j = if j = i then next else s.calls j := by
  simp only [goes, Function.update_apply]

theorem spawned_owner {call : ListenerCall} {state k : Nat} (h : call.spawned = some (state, k)) :
    call.owner = some k := by
  cases call <;> cases h <;> rfl

theorem owner_spawned {call : ListenerCall} (h : call.owner = none) : call.spawned = none := by
  cases call <;> first | rfl | cases h

/-- A call goes on with empty hands. What it had is cancelled or in the registry. -/
theorem Attended.goes (h : s.Attended) (howner : next.owner = none)
    (hgone : ∀ k, (s.calls i).owner = some k → ¬ s.Live k) : (s.goes i next).Attended where
  live k hk := by
    rcases h.live k hk with hstored | ⟨j, hj⟩
    · exact .inl hstored
    · refine .inr ⟨j, ?_⟩
      rw [calls_goes, if_neg]
      · exact hj
      · rintro rfl
        exact hgone k hj hk
  serving := h.serving
  spawned j state k hj := by
    rw [calls_goes] at hj
    split at hj
    · rw [owner_spawned howner] at hj
      cases hj
    · exact h.spawned j state k hj
  held j k hj := by
    rw [calls_goes] at hj
    split at hj
    · rw [howner] at hj
      cases hj
    · exact h.held j k hj
  once j j' k hj hj' := by
    rw [calls_goes] at hj hj'
    split at hj
    · rw [howner] at hj
      cases hj
    · split at hj'
      · rw [howner] at hj'
        cases hj'
      · exact h.once j j' k hj hj'

/-- A call with empty hands goes on so. -/
theorem Attended.goes_empty (h : s.Attended) (hnone : (s.calls i).owner = none) (howner : next.owner = none) :
    (s.goes i next).Attended :=
  h.goes howner fun k hk => by rw [hnone] at hk; cases hk

theorem cancel_get (s : ListenerState) (k j : Nat) :
    (s.cancel k).tasks[j]? = if j = k then s.tasks[j]?.map (fun t => { t with cancelled := true }) else s.tasks[j]? := by
  simp only [cancel]
  split
  · next h =>
    subst h
    rw [List.getElem?_modify_eq]
    rfl
  · next h => rw [List.getElem?_modify_ne _ _ (Ne.symm h)]

/-- A call cancels the task in its hands. -/
theorem Attended.cancelled (h : s.Attended) (hk : (s.calls i).owner = some k) (howner : next.owner = none) :
    ((s.cancel k).goes i next).Attended := by
  obtain ⟨-, hstored⟩ := h.held i k hk
  have hother : ∀ {j k'}, (s.calls j).owner = some k' → j ≠ i → k' ≠ k := by
    rintro j k' hj hne rfl
    exact hne (h.once j i k' hj hk)
  have hlive : ∀ k', (s.cancel k).Live k' → k' ≠ k ∧ s.Live k' := by
    rintro k' ⟨t, ht, hc⟩
    rw [cancel_get] at ht
    split at ht
    · obtain ⟨t', -, rfl⟩ := Option.map_eq_some_iff.1 ht
      cases hc
    · next hne => exact ⟨hne, t, ht, hc⟩
  constructor
  · intro k' hk'
    obtain ⟨hne, hl⟩ := hlive k' hk'
    rcases h.live k' hl with hs | ⟨j, hj⟩
    · exact .inl hs
    · refine .inr ⟨j, ?_⟩
      rw [calls_goes, if_neg]
      · exact hj
      · rintro rfl
        exact hne (Option.some.inj (hj.symm.trans hk))
  · intro m k' hm hl
    have hne : k' ≠ k := by
      rintro rfl
      exact hstored (by simp only [stored]; rw [show s.managed = some m from hm]; exact hl)
    change (s.cancel k).tasks[k']? = _
    rw [cancel_get, if_neg hne]
    exact h.serving m k' hm hl
  · intro j state k' hj
    rw [calls_goes] at hj
    split at hj
    · rw [owner_spawned howner] at hj
      cases hj
    · next hne =>
      change (s.cancel k).tasks[k']? = _
      rw [cancel_get, if_neg (hother (spawned_owner hj) hne)]
      exact h.spawned j state k' hj
  · intro j k' hj
    rw [calls_goes] at hj
    split at hj
    · rw [howner] at hj
      cases hj
    · obtain ⟨hlt, hs⟩ := h.held j k' hj
      exact ⟨by simpa [ListenerState.goes, cancel] using hlt, hs⟩
  · intro j j' k' hj hj'
    rw [calls_goes] at hj hj'
    split at hj
    · rw [howner] at hj
      cases hj
    · split at hj'
      · rw [howner] at hj'
        cases hj'
      · exact h.once j j' k' hj hj'

/-- An entry without a listener changes into another, or none. -/
theorem Attended.unlistened (h : s.Attended) (hnone : s.stored = none) {managed : Option ManagedDatagram}
    (hmanaged : ∀ m, managed = some m → m.listener = none) : { s with managed }.Attended where
  live k hk := by
    rcases h.live k hk with hs | hi
    · rw [hnone] at hs
      cases hs
    · exact .inr hi
  serving m k hm hl := by
    rw [hmanaged m hm] at hl
    cases hl
  spawned := h.spawned
  held j k hj := by
    refine ⟨(h.held j k hj).1, ?_⟩
    intro hs
    cases hm : managed with
    | none => simp [stored, hm] at hs
    | some m => simp [stored, hm, hmanaged m hm] at hs
  once := h.once

/-- A call spawns a task for a state and has its owner. -/
theorem Attended.spawns (h : s.Attended) (hnone : (s.calls i).owner = none) {state : Nat}
    (hspawned : next.spawned = some (state, s.tasks.length)) : ((s.spawn state).goes i next).Attended := by
  have howner := spawned_owner hspawned
  have hold : ∀ {k}, k < s.tasks.length → (s.spawn state).tasks[k]? = s.tasks[k]? := fun hk => List.getElem?_append_left hk
  have hlen : ∀ {k t}, s.tasks[k]? = some t → k < s.tasks.length := fun hk => (List.getElem?_eq_some_iff.1 hk).1
  constructor
  · rintro k ⟨t, ht, hc⟩
    change (s.spawn state).tasks[k]? = some t at ht
    rcases Nat.lt_trichotomy k s.tasks.length with hk | rfl | hk
    · rw [hold hk] at ht
      rcases h.live k ⟨t, ht, hc⟩ with hs | ⟨j, hj⟩
      · exact .inl hs
      · refine .inr ⟨j, ?_⟩
        rw [calls_goes, if_neg]
        · exact hj
        · rintro rfl
          rw [hnone] at hj
          cases hj
    · exact .inr ⟨i, by rw [calls_goes, if_pos rfl]; exact howner⟩
    · rw [List.getElem?_eq_none (by simp [spawn]; omega)] at ht
      cases ht
  · intro m k hm hl
    have hk := h.serving m k hm hl
    exact (hold (hlen hk)).trans hk
  · intro j st k hj
    rw [calls_goes] at hj
    split at hj
    · rw [hspawned] at hj
      cases hj
      exact List.getElem?_concat_length
    · have hk := h.spawned j st k hj
      exact (hold (hlen hk)).trans hk
  · intro j k hj
    have hgrown : (s.spawn state).tasks.length = s.tasks.length + 1 := by simp [spawn]
    change k < (s.spawn state).tasks.length ∧ s.stored ≠ some k
    rw [calls_goes] at hj
    split at hj
    · rw [howner] at hj
      cases hj
      refine ⟨by omega, ?_⟩
      intro hs
      simp only [stored, Option.bind_eq_some_iff] at hs
      obtain ⟨m, hm, hl⟩ := hs
      exact Nat.lt_irrefl _ (hlen (h.serving m _ hm hl))
    · obtain ⟨hlt, hs⟩ := h.held j k hj
      exact ⟨by omega, hs⟩
  · intro j j' k hj hj'
    rw [calls_goes] at hj hj'
    split at hj
    · next hji =>
      split at hj'
      · next hji' => exact hji.trans hji'.symm
      · rw [howner] at hj
        cases hj
        exact absurd (h.held j' _ hj').1 (Nat.lt_irrefl _)
    · split at hj'
      · rw [howner] at hj'
        cases hj'
        exact absurd (h.held j _ hj).1 (Nat.lt_irrefl _)
      · exact h.once j j' k hj hj'

/-- A call stores its owner in an entry of the same state that has none. -/
theorem Attended.attaches (h : s.Attended) {m : ManagedDatagram} (hm : s.managed = some m) (hl : m.listener = none)
    (hspawned : (s.calls i).spawned = some (m.state, k)) :
    ({ s with managed := some { m with listener := some k } }.goes i .idle).Attended := by
  have howner := spawned_owner hspawned
  have hnone : s.stored = none := by simp [stored, hm, hl]
  constructor
  · intro k' hk'
    rcases h.live k' hk' with hs | ⟨j, hj⟩
    · rw [hnone] at hs
      cases hs
    · by_cases hji : j = i
      · subst hji
        rw [howner] at hj
        exact .inl hj
      · exact .inr ⟨j, by rw [calls_goes, if_neg hji]; exact hj⟩
  · intro m' k' hm' hl'
    cases hm'
    cases hl'
    exact h.spawned i _ _ hspawned
  · intro j state k' hj
    rw [calls_goes] at hj
    split at hj
    · cases hj
    · exact h.spawned j state k' hj
  · intro j k' hj
    rw [calls_goes] at hj
    split at hj
    · cases hj
    · next hji =>
      refine ⟨(h.held j k' hj).1, ?_⟩
      rintro hs
      cases hs
      exact hji (h.once j i k hj howner)
  · intro j j' k' hj hj'
    rw [calls_goes] at hj hj'
    split at hj
    · cases hj
    · split at hj'
      · cases hj'
      · exact h.once j j' k' hj hj'

/-- A call takes the owner out of the registry. -/
theorem Attended.takes (h : s.Attended) (hnone : (s.calls i).owner = none) (hk : s.stored = some k)
    {managed : Option ManagedDatagram} (hmanaged : ∀ m, managed = some m → m.listener = none)
    (howner : next.owner = some k) (hspawned : next.spawned = none) : ({ s with managed }.goes i next).Attended := by
  have hempty : { s with managed }.stored = none := by
    cases hm : managed with
    | none => rfl
    | some m => exact hmanaged m hm
  constructor
  · intro k' hk'
    rcases h.live k' hk' with hs | ⟨j, hj⟩
    · cases hk.symm.trans hs
      exact .inr ⟨i, by rw [calls_goes, if_pos rfl]; exact howner⟩
    · refine .inr ⟨j, ?_⟩
      rw [calls_goes, if_neg]
      · exact hj
      · rintro rfl
        rw [hnone] at hj
        cases hj
  · intro m k' hm hl
    rw [hmanaged m hm] at hl
    cases hl
  · intro j state k' hj
    rw [calls_goes] at hj
    split at hj
    · rw [hspawned] at hj
      cases hj
    · exact h.spawned j state k' hj
  · intro j k' hj
    refine ⟨?_, fun hs => nomatch hempty.symm.trans hs⟩
    rw [calls_goes] at hj
    split at hj
    · cases howner.symm.trans hj
      simp only [stored, Option.bind_eq_some_iff] at hk
      obtain ⟨m, hm, hl⟩ := hk
      exact (List.getElem?_eq_some_iff.1 (h.serving m k hm hl)).1
    · exact (h.held j k' hj).1
  · intro j j' k' hj hj'
    rw [calls_goes] at hj hj'
    split at hj
    · next hji =>
      split at hj'
      · next hji' => exact hji.trans hji'.symm
      · cases howner.symm.trans hj
        exact absurd hk (h.held j' k hj').2
    · split at hj'
      · cases howner.symm.trans hj'
        exact absurd hk (h.held j k hj).2
      · exact h.once j j' k' hj hj'

/-! ## Steps -/

theorem begin_attended (h : s.Attended) (hidle : s.calls i = .idle) (ok : Bool) (act : ListenerAct) :
    (s.begin_ i ok act).Attended := by
  have hnone : (s.calls i).owner = none := by rw [hidle]; rfl
  cases act with
  | create spec =>
    simp only [begin_]
    split
    · exact h
    · split
      · exact h.goes_empty hnone rfl
      · exact h
  | enable =>
    simp only [begin_]
    split
    · next m hm =>
      split
      · exact h
      · next hl =>
        have hl' : m.listener = none := by simpa using hl
        refine Attended.goes_empty (h.unlistened (by simp [stored, hm, hl']) ?_) hnone rfl
        intro m' hm'
        cases hm'
        exact hl'
    · exact h
  | disable =>
    simp only [begin_]
    split
    · next m hm =>
      split
      · next k hl =>
        refine h.takes hnone (by simp [stored, hm, hl]) ?_ rfl rfl
        intro m' hm'
        cases hm'
        rfl
      · next hl =>
        refine h.unlistened (by simp [stored, hm, hl]) ?_
        intro m' hm'
        cases hm'
        exact hl
    · exact h
  | delete =>
    simp only [begin_]
    split
    · next m hm =>
      split
      · next k hl => exact h.takes hnone (by simp [stored, hm, hl]) nofun rfl rfl
      · next hl => exact h.unlistened (by simp [stored, hm, hl]) nofun
    · exact h
  | update values =>
    simp only [begin_]
    split
    · exact h.goes_empty hnone rfl
    · exact h
  | advance => exact h

theorem advance_attended (h : s.Attended) (ok : Bool) (act : ListenerAct) (hx : ¬ s.Orphans ⟨i, act, ok⟩) :
    (s.advance i ok).Attended := by
  have hspec : ∀ states spec, { s with states, spec }.Attended :=
    fun states spec => ⟨h.live, h.serving, h.spawned, h.held, h.once⟩
  simp only [advance]
  cases hcall : s.calls i with
  | idle => exact h
  | createBinding spec =>
    have hnone : (s.calls i).owner = none := by rw [hcall]; rfl
    simp only
    split
    · exact (hspec _ _).goes_empty hnone rfl
    · exact h.goes_empty hnone rfl
  | createInserting state =>
    have hnone : (s.calls i).owner = none := by rw [hcall]; rfl
    simp only
    split
    · exact h.goes_empty hnone rfl
    · next hm =>
      split
      · refine Attended.goes_empty (h.unlistened (by simp [stored, hm]) ?_) hnone rfl
        intro m' hm'
        cases hm'
        rfl
      · exact h.goes_empty hnone rfl
  | createSpawning state | enableSpawning state | updateSpawning state =>
    exact h.spawns (by rw [hcall]; rfl) rfl
  | createAttaching state k =>
    have howner : (s.calls i).owner = some k := by rw [hcall]; rfl
    simp only [createAttach]
    split
    · next m hm =>
      split
      · exact h.cancelled howner rfl
      · next hstart =>
        simp only [Orphans, hcall, hm, not_and, not_or, not_not] at hx
        obtain ⟨hl, hstate⟩ := hx (by simpa using hstart)
        exact h.attaches hm hl (by rw [hcall, hstate]; rfl)
    · exact h.cancelled howner rfl
  | enableBinding state =>
    have hnone : (s.calls i).owner = none := by rw [hcall]; rfl
    simp only
    split <;> exact h.goes_empty hnone rfl
  | enableAttaching state k =>
    have howner : (s.calls i).owner = some k := by rw [hcall]; rfl
    simp only [enableAttach]
    split
    · next m hm =>
      split
      · exact h.cancelled howner rfl
      · next hl =>
        split
        · exact h.cancelled howner rfl
        · next hstart =>
          simp only [Orphans, hcall, hm, not_and, not_not] at hx
          have hl' : m.listener = none := by simpa using hl
          exact h.attaches hm hl' (by rw [hcall, hx hl' (by simpa using hstart)]; rfl)
    · next hm => exact absurd (by simp [Orphans, hcall, hm]) hx
  | stopping k => exact h.cancelled (by rw [hcall]; rfl) rfl
  | updateReading state running base values =>
    have hnone : (s.calls i).owner = none := by rw [hcall]; rfl
    simp only
    split <;> exact h.goes_empty hnone rfl
  | updateBinding plan =>
    have hnone : (s.calls i).owner = none := by rw [hcall]; rfl
    simp only
    split <;> exact h.goes_empty hnone rfl
  | updateTaking plan =>
    have hnone : (s.calls i).owner = none := by rw [hcall]; rfl
    simp only
    split
    · split
      · split
        · next m hm =>
          split
          · next k hl =>
            refine h.takes hnone (by simp [stored, hm, hl]) ?_ rfl rfl
            intro m' hm'
            cases hm'
            rfl
          · exact h.goes_empty hnone rfl
        · exact h.goes_empty hnone rfl
      · exact h.goes_empty hnone rfl
    · exact h.goes_empty hnone rfl
  | updateStopping plan k => exact h.cancelled (by rw [hcall]; rfl) rfl
  | updateChecking plan =>
    have hnone : (s.calls i).owner = none := by rw [hcall]; rfl
    simp only
    split <;> exact h.goes_empty hnone rfl
  | updateWriting plan =>
    have hnone : (s.calls i).owner = none := by rw [hcall]; rfl
    simp only
    split
    · exact (hspec _ _).goes_empty hnone (by split <;> rfl)
    · exact h.goes_empty hnone rfl
  | updateAttaching state k =>
    have howner : (s.calls i).owner = some k := by rw [hcall]; rfl
    simp only [updateAttach]
    split
    · next m hm =>
      simp only [Orphans, hcall, hm, not_or, not_not] at hx
      exact h.attaches hm hx.1 (by rw [hcall, hx.2]; rfl)
    · exact h.cancelled howner rfl

theorem step_attended (s : ListenerState) (op : ListenerOp) (h : s.Attended) (hx : ¬ s.Orphans op) :
    (s.step op).Attended := by
  simp only [step]
  split
  · next hidle => exact begin_attended h hidle op.ok op.act
  · exact advance_attended h op.ok op.act hx

end

/-- Nothing is in progress. -/
def Quiet (s : ListenerState) : Prop := ∀ i, s.calls i = .idle

/-- The live listener tasks are the one the registry has, and it serves the state
of the current definition. -/
structure OneListener (s : ListenerState) : Prop where
  tasks : s.liveTasks = s.stored.toList
  serving : ∀ m k, s.managed = some m → m.listener = some k → s.tasks[k]? = some ⟨m.state, false⟩

theorem mem_liveTasks (s : ListenerState) (k : Nat) : k ∈ s.liveTasks ↔ s.Live k := by
  simp only [liveTasks, List.mem_filter, List.mem_range, Live]
  constructor
  · rintro ⟨hk, ht⟩
    refine ⟨s.tasks[k], List.getElem?_eq_getElem hk, ?_⟩
    simpa [List.getElem?_eq_getElem hk] using ht
  · rintro ⟨t, ht, hc⟩
    exact ⟨(List.getElem?_eq_some_iff.1 ht).1, by simp [ht, hc]⟩

theorem Attended.oneListener {s : ListenerState} (h : s.Attended) (hq : s.Quiet) : s.OneListener := by
  refine ⟨?_, h.serving⟩
  have hnodup : s.liveTasks.Nodup := List.nodup_range.filter _
  have hmem : ∀ k, k ∈ s.liveTasks ↔ s.stored = some k := by
    intro k
    rw [mem_liveTasks]
    constructor
    · intro hk
      rcases h.live k hk with hs | ⟨i, hi⟩
      · exact hs
      · rw [hq i] at hi
        cases hi
    · intro hs
      simp only [stored, Option.bind_eq_some_iff] at hs
      obtain ⟨m, hm, hl⟩ := hs
      exact ⟨_, h.serving m k hm hl, rfl⟩
  cases hs : s.stored with
  | none =>
    refine List.eq_nil_iff_forall_not_mem.2 fun k hk => ?_
    rw [hmem, hs] at hk
    cases hk
  | some k =>
    refine (List.perm_singleton.1 ((List.perm_ext_iff_of_nodup hnodup (by simp)).2 fun k' => ?_))
    rw [hmem, hs, List.mem_singleton, Option.some.injEq]
    exact eq_comm

theorem start_attended : start.Attended := by
  refine ⟨?_, nofun, nofun, nofun, nofun⟩
  rintro k ⟨t, ht, -⟩
  cases ht

/-- In a run without an orphaning step, whenever nothing is in progress there is
one live listener task if the registry has one and none otherwise, and it serves
the state of the current definition. -/
theorem one_listener (ops : List ListenerOp) (h : Along step (fun s op => ¬ s.Orphans op) start ops) :
    ∀ pre, pre <+: ops → (run step start pre).Quiet → (run step start pre).OneListener := by
  rintro pre ⟨rest, rfl⟩ hq
  rw [along_append] at h
  exact (run_inv_along Attended step_attended start_attended h.1).oneListener hq

instance (s : ListenerState) (op : ListenerOp) : Decidable (s.Orphans op) := by
  unfold Orphans
  split <;> infer_instance

/-- A definition that listens on a port of the system's choice. -/
def anyPort : DatagramSpec := ⟨0, 53, 16, 1000⟩

/-- The rest of a call, in `n` steps. -/
def rest (caller n : Nat) : List ListenerOp := List.replicate n ⟨caller, .advance, true⟩

def created (caller : Nat) : List ListenerOp := ⟨caller, .create anyPort, true⟩ :: rest caller 4

def disabled (caller : Nat) : List ListenerOp := ⟨caller, .disable, true⟩ :: rest caller 1

/-- Disabled, enabled again and moved to another port. -/
def moved : List ListenerOp :=
  created 0 ++ disabled 0 ++ ⟨0, .enable, true⟩ :: rest 0 3 ++ ⟨0, .update { listen := some 7 }, true⟩ :: rest 0 8

theorem one_listener_moved :
    (run step start moved).liveTasks = [2] ∧ (run step start moved).OneListener ∧
      (run step start (moved ++ ⟨0, .delete, true⟩ :: rest 0 1)).OneListener := by
  refine ⟨by decide, ?_, ?_⟩
  · refine one_listener moved (by decide) moved List.prefix_rfl ?_
    rintro (_ | i) <;> rfl
  · refine one_listener _ (by decide) _ List.prefix_rfl ?_
    rintro (_ | i) <;> rfl

/-- The proxy is deleted while `enable_proxy` binds. -/
def deletedWhileEnabling : List ListenerOp :=
  created 0 ++ disabled 0 ++ ⟨0, .enable, true⟩ :: rest 0 1 ++ ⟨1, .delete, true⟩ :: rest 0 2

/-- Two calls start the same stopped proxy, and the update stores last. -/
def enabledWhileUpdating : List ListenerOp :=
  created 0 ++ disabled 0 ++ ⟨0, .update { enabled := some true }, true⟩ :: rest 0 6 ++ ⟨1, .enable, true⟩ :: rest 1 3 ++
    rest 0 1

/-- The proxy is deleted, created anew and disabled while `enable_proxy` binds. -/
def recreatedWhileEnabling : List ListenerOp :=
  created 0 ++ disabled 0 ++ ⟨0, .enable, true⟩ :: rest 0 1 ++ ⟨1, .delete, true⟩ :: created 1 ++ disabled 1 ++ rest 0 2

/-- Nothing is in progress after each of three runs: in the first a listener is
left of a proxy that is gone, in the second two listeners of one proxy are left, and
in the third the listener serves the definition that was deleted. -/
theorem listeners_left_behind :
    (let s := run step start deletedWhileEnabling
     s.Quiet ∧ s.managed = none ∧ s.liveTasks = [1] ∧ ¬ s.OneListener) ∧
      (let s := run step start enabledWhileUpdating
       s.Quiet ∧ s.stored = some 1 ∧ s.liveTasks = [1, 2] ∧ ¬ s.OneListener) ∧
      (let s := run step start recreatedWhileEnabling
       s.Quiet ∧ s.managed = some ⟨1, some 2, false⟩ ∧ s.tasks[2]? = some ⟨0, false⟩ ∧ ¬ s.OneListener) := by
  refine ⟨⟨?_, by decide, by decide, ?_⟩, ⟨?_, by decide, by decide, ?_⟩,
    ⟨?_, by decide, by decide, ?_⟩⟩
  · rintro (_ | _ | i) <;> rfl
  · intro h
    have htasks := h.tasks
    revert htasks
    decide
  · rintro (_ | _ | i) <;> rfl
  · intro h
    have htasks := h.tasks
    revert htasks
    decide
  · rintro (_ | _ | i) <;> rfl
  · intro h
    have hserving := h.serving ⟨1, some 2, false⟩ 2 rfl rfl
    revert hserving
    decide

end ListenerState

end Eggchaos
