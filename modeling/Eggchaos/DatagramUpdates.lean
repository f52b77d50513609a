import Eggchaos.Listeners
/-!
# Refused datagram updates

`update_proxy` of the datagram runtime with its refusals. Its sections are those of
`ListenerState`; here a section also decides whether the call is refused, from the
values it asks for, from `proxy_active` and from the definition as it stands.

`proxy_active` is loaded outside any lock, so a capacity check is a step of its
own before the section it belongs to. The last check and the write are one step:
both are made under `capacity_mutation`, which an association takes to acquire its
place. Whether a definition is valid is a parameter, and whether a socket binds is
the environment's answer to the step.
-/

namespace Eggchaos
open Lib

/-- `DatagramRuntimeError` as far as `update_proxy` of a proxy that exists returns it. -/
inductive UpdateRefusal where
  | bind
  | invalid
  | conflict
deriving DecidableEq, Repr

/-- The plan whose limit is compared with the active count before the section. -/
def ListenerCall.capacityCheck : ListenerCall → Option UpdatePlan
  | .updateBinding plan => some plan
  -- The active count is checked again before an old listener is stopped.
  | .updateTaking plan => if plan.mustStopOld then some plan else none
  | .updateWriting plan => if plan.mustStopOld then none else some plan
  | _ => none

/-- The sections of `update_proxy`. -/
def ListenerCall.isUpdate : ListenerCall → Bool
  | .updateReading .. | .updateBinding _ | .updateTaking _ | .updateStopping .. | .updateChecking _ | .updateWriting _
  | .updateSpawning _ | .updateAttaching .. => true
  | _ => false

/-- The sections of `update_proxy` up to its write. -/
def ListenerCall.early : ListenerCall → Bool
  | .updateReading .. | .updateBinding _ | .updateTaking _ | .updateStopping .. | .updateChecking _ | .updateWriting _ =>
    true
  | _ => false

/-- The calls on one name with the active associations, and of each caller's
current or last call how it went. -/
structure UpdateCalls where
  base : ListenerState
  /-- `proxy_active` of each state. -/
  active : Nat → Nat
  /-- The capacity check before the call's next section is made. -/
  checked : Nat → Bool
  /-- The call has taken the old listener. -/
  stopped : Nat → Bool
  /-- No step of the call so far has changed a definition. -/
  specKept : Nat → Bool
  /-- No step of the call so far has changed which listener the proxy has, or cancelled one. -/
  listenerKept : Nat → Bool
  refused : Nat → Option UpdateRefusal

inductive UpdateEvent where
  | call (op : ListenerOp)
  /-- `CapacityLease::try_acquire`, which a full registry can also refuse. -/
  | acquire (state : Nat)
  | release (state : Nat)

/-- The definitions there were are as they were. -/
def ListenerState.specsKept (s s' : ListenerState) : Bool :=
  (List.range s.states).all fun n => s'.spec n = s.spec n

/-- The proxy has the listener it had, and what ran still runs. -/
def ListenerState.listenersKept (s s' : ListenerState) : Bool :=
  s'.stored = s.stored && s.liveTasks.all (· ∈ s'.liveTasks)

namespace ListenerState

variable {s s' : ListenerState}

theorem specsKept_of_eq (h : s'.spec = s.spec) : s.specsKept s' = true := by
  simp [specsKept, h]

theorem listenersKept_of_eq (hmanaged : s'.managed = s.managed) (htasks : s'.tasks = s.tasks) :
    s.listenersKept s' = true := by
  have hlive : s'.liveTasks = s.liveTasks := by simp only [liveTasks, htasks]
  simp [listenersKept, stored, hmanaged, hlive]

theorem not_listenersKept_of_stored (h : s'.stored ≠ s.stored) : s.listenersKept s' = false := by
  simp [listenersKept, h]

theorem begin_calls_other (s : ListenerState) {i j : Nat} (ok : Bool) (act : ListenerAct) (hj : j ≠ i) :
    (s.begin_ i ok act).calls j = s.calls j := by
  cases act <;> simp only [begin_] <;> (repeat' split) <;> first | rfl | exact Function.update_of_ne hj _ _

/-- Only `update_proxy` has a section before its write, and its first one only reads. -/
theorem begin_early {i : Nat} {ok : Bool} {act : ListenerAct} (hidle : s.calls i = .idle)
    (h : ((s.begin_ i ok act).calls i).early = true) :
    ∃ state running spec values, s.begin_ i ok act = s.goes i (.updateReading state running spec values) := by
  have hrefuted : ∀ {call : ListenerCall}, call.early = true → call = .idle → False := by
    rintro _ hearly rfl
    cases hearly
  cases act with
  | update values =>
    simp only [begin_] at h ⊢
    split
    · exact ⟨_, _, _, _, rfl⟩
    · next hm =>
      rw [hm] at h
      exact (hrefuted h hidle).elim
  | advance => exact (hrefuted h hidle).elim
  | create | enable | disable | delete =>
    exfalso
    simp only [begin_] at h
    repeat' split at h
    all_goals first | exact hrefuted h hidle | (rw [calls_goes, if_pos rfl] at h; cases h)

theorem advance_calls_other (s : ListenerState) {i j : Nat} (ok : Bool) (hj : j ≠ i) :
    (s.advance i ok).calls j = s.calls j := by
  cases hcall : s.calls i <;> simp only [advance, hcall, createAttach, enableAttach, updateAttach] <;> (repeat' split) <;>
    first | rfl | exact Function.update_of_ne hj _ _

/-- A call that is not in a section of `update_proxy` before its write does not get there. -/
theorem advance_not_early (s : ListenerState) (i : Nat) (ok : Bool) (h : (s.calls i).early = false) :
    ((s.advance i ok).calls i).early = false := by
  cases hcall : s.calls i with
  | updateReading | updateBinding | updateTaking | updateStopping | updateChecking | updateWriting =>
    rw [hcall] at h
    cases h
  | _ =>
    simp only [advance, hcall]
    repeat' split
    all_goals first | rfl | (rw [calls_goes, if_pos rfl]; rfl)

end ListenerState

namespace UpdateCalls

open Function (update)

/-- The runtime with no call under way. -/
def opened (base : ListenerState) (active : Nat → Nat) : UpdateCalls where
  base := { base with calls := fun _ => .idle }
  active := active
  checked := fun _ => false
  stopped := fun _ => false
  specKept := fun _ => true
  listenerKept := fun _ => true
  refused := fun _ => none

/-- The error of a section, with its capacity check behind it. -/
def refusal (valid : DatagramSpec → Bool) (s : UpdateCalls) (bound : Bool) : ListenerCall → Option UpdateRefusal
  | .updateReading _ _ base values => if valid (values.apply base) then none else some .invalid
  | .updateBinding plan => if plan.prebinds && !bound then some .bind else none
  | .updateChecking plan => if s.base.spec plan.state = plan.old then none else some .conflict
  | .updateWriting plan => if plan.next.maxAssociations < s.active plan.state then some .invalid else none
  | _ => none

/-- The first section of a call. -/
def begins (s : UpdateCalls) (op : ListenerOp) : UpdateCalls :=
  let base := s.base.begin_ op.caller op.ok op.act
  { s with
    base
    checked := update s.checked op.caller false
    stopped := update s.stopped op.caller false
    specKept := update s.specKept op.caller (s.base.specsKept base)
    listenerKept := update s.listenerKept op.caller (s.base.listenersKept base)
    refused := update s.refused op.caller none }

/-- The call returns the error. -/
def refuse (s : UpdateCalls) (i : Nat) (r : UpdateRefusal) : UpdateCalls :=
  { s with base := s.base.goes i .idle, refused := update s.refused i (some r) }

/-- The section finds a listener that it takes to stop it. -/
def takesListener (s : UpdateCalls) : ListenerCall → Bool
  | .updateTaking plan => plan.mustStopOld && s.base.stored.isSome
  | _ => false

/-- The call goes on. An update is refused by its own checks only. -/
def proceed (s : UpdateCalls) (i : Nat) (ok : Bool) : UpdateCalls :=
  let call := s.base.calls i
  let base := s.base.advance i (call.isUpdate || ok)
  { s with
    base
    checked := update s.checked i false
    stopped := update s.stopped i (s.stopped i || s.takesListener call)
    specKept := update s.specKept i (s.specKept i && s.base.specsKept base)
    listenerKept := update s.listenerKept i (s.listenerKept i && s.base.listenersKept base) }

/-- The next step of a call that is under way. -/
def advance (valid : DatagramSpec → Bool) (s : UpdateCalls) (i : Nat) (ok : Bool) : UpdateCalls :=
  match (s.base.calls i).capacityCheck, s.checked i with
  | some plan, false =>
    if plan.next.maxAssociations < s.active plan.state then s.refuse i .invalid
    else { s with checked := update s.checked i true }
  | _, _ =>
    match s.refusal valid ok (s.base.calls i) with
    | some r => s.refuse i r
    | none => s.proceed i ok

def step (valid : DatagramSpec → Bool) (s : UpdateCalls) : UpdateEvent → UpdateCalls
  | .call op =>
    match s.base.calls op.caller with
    | .idle => s.begins op
    | _ => s.advance valid op.caller op.ok
  | .acquire state =>
    if s.active state < (s.base.spec state).maxAssociations then
      { s with active := update s.active state (s.active state + 1) }
    else s
  | .release state => { s with active := update s.active state (s.active state - 1) }

/-- A call that was refused has changed nothing. -/
def Atomic (s : UpdateCalls) : Prop :=
  ∀ i, s.refused i ≠ none → s.specKept i = true ∧ s.listenerKept i = true

/-- The definition is as the update read it, and no more associations are active
than it will allow, in the sections that look again. -/
def Agrees (s : UpdateCalls) : ListenerCall → Prop
  | .updateChecking plan => s.base.spec plan.state = plan.old
  | .updateWriting plan => s.active plan.state ≤ plan.next.maxAssociations
  | _ => True

/-- A call that has taken the old listener finds what it goes on with. -/
def Finds (s : UpdateCalls) : UpdateEvent → Prop
  | .call op => s.stopped op.caller = true → s.Agrees (s.base.calls op.caller)
  | _ => True

/-! ## What a call has done -/

/-- Where the call is says what it has changed. -/
def Accounts (s : UpdateCalls) (i : Nat) : ListenerCall → Prop
  | .updateReading .. | .updateBinding _ | .updateTaking _ =>
    s.refused i = none ∧ s.specKept i = true ∧ s.listenerKept i = true ∧ s.stopped i = false
  | .updateStopping plan _ =>
    s.refused i = none ∧ s.specKept i = true ∧ s.listenerKept i = false ∧ s.stopped i = true ∧ plan.mustStopOld = true
  | .updateChecking plan | .updateWriting plan =>
    s.refused i = none ∧ s.specKept i = true ∧ s.listenerKept i = !s.stopped i ∧
      (s.stopped i = true → plan.mustStopOld = true)
  | .idle => s.refused i ≠ none → s.specKept i = true
  | _ => s.refused i = none

def Accounted (s : UpdateCalls) : Prop := ∀ i, s.Accounts i (s.base.calls i)

section

variable {valid : DatagramSpec → Bool} {s : UpdateCalls} {i : Nat} {ok : Bool}

/-- What the next step of a call under way does. -/
inductive Advances (valid : DatagramSpec → Bool) (s : UpdateCalls) (i : Nat) (ok : Bool) : UpdateCalls → Prop where
  | checks (plan : UpdatePlan) (h : (s.base.calls i).capacityCheck = some plan) :
    Advances valid s i ok { s with checked := update s.checked i true }
  | full (plan : UpdatePlan) (h : (s.base.calls i).capacityCheck = some plan) :
    Advances valid s i ok (s.refuse i .invalid)
  | refused (r : UpdateRefusal) (h : s.refusal valid ok (s.base.calls i) = some r) : Advances valid s i ok (s.refuse i r)
  | proceeds (h : s.refusal valid ok (s.base.calls i) = none) : Advances valid s i ok (s.proceed i ok)

theorem advance_advances (valid : DatagramSpec → Bool) (s : UpdateCalls) (i : Nat) (ok : Bool) :
    Advances valid s i ok (s.advance valid i ok) := by
  simp only [advance]
  split
  · next plan hplan _ =>
    split
    · exact .full plan hplan
    · exact .checks plan hplan
  · split
    · next r hr => exact .refused r hr
    · next hr => exact .proceeds hr

theorem accounts_congr {s s' : UpdateCalls} {j : Nat} {call : ListenerCall} (hrefused : s'.refused j = s.refused j)
    (hspec : s'.specKept j = s.specKept j) (hlistener : s'.listenerKept j = s.listenerKept j)
    (hstopped : s'.stopped j = s.stopped j) : s'.Accounts j call ↔ s.Accounts j call := by
  cases call <;> simp only [Accounts, hrefused, hspec, hlistener, hstopped]

/-- A call under way is not one that was refused. -/
theorem Accounts.none_refused {call : ListenerCall} (h : s.Accounts i call) (hcall : call ≠ .idle) :
    s.refused i = none := by
  cases call with
  | idle => exact absurd rfl hcall
  | updateReading | updateBinding | updateTaking | updateStopping | updateChecking | updateWriting => exact h.1
  | _ => exact h

theorem accounts_of_not_early {call : ListenerCall} (h : s.refused i = none) (hcall : call.early = false) :
    s.Accounts i call := by
  cases call with
  | idle => exact fun hrefused => absurd h hrefused
  | updateReading | updateBinding | updateTaking | updateStopping | updateChecking | updateWriting => cases hcall
  | _ => exact h

theorem proceed_base (s : UpdateCalls) (i : Nat) (ok : Bool) :
    (s.proceed i ok).base = s.base.advance i ((s.base.calls i).isUpdate || ok) := rfl

theorem proceed_kept (s : UpdateCalls) (i : Nat) (ok : Bool) :
    (s.proceed i ok).specKept i = (s.specKept i && s.base.specsKept (s.proceed i ok).base) ∧
      (s.proceed i ok).listenerKept i = (s.listenerKept i && s.base.listenersKept (s.proceed i ok).base) ∧
      (s.proceed i ok).stopped i = (s.stopped i || s.takesListener (s.base.calls i)) := by
  simp only [proceed, Function.update_self, and_self]

theorem proceed_specKept (h : (s.proceed i ok).base.spec = s.base.spec) : (s.proceed i ok).specKept i = s.specKept i := by
  rw [(proceed_kept s i ok).1, ListenerState.specsKept_of_eq h, Bool.and_true]

/-- A section that only goes on changes neither definition nor listener. -/
theorem proceed_goes {next : ListenerCall} (hnext : (s.proceed i ok).base = s.base.goes i next)
    (htakes : s.takesListener (s.base.calls i) = false) :
    (s.proceed i ok).specKept i = s.specKept i ∧ (s.proceed i ok).listenerKept i = s.listenerKept i ∧
      (s.proceed i ok).stopped i = s.stopped i ∧ (s.proceed i ok).base.calls i = next := by
  obtain ⟨-, hlistener, hstopped⟩ := proceed_kept s i ok
  have hlisteners : s.base.listenersKept (s.proceed i ok).base = true := by
    rw [hnext]
    exact ListenerState.listenersKept_of_eq rfl rfl
  rw [hlisteners, Bool.and_true] at hlistener
  rw [htakes, Bool.or_false] at hstopped
  refine ⟨proceed_specKept (by rw [hnext]; rfl), hlistener, hstopped, ?_⟩
  rw [hnext, ListenerState.calls_goes, if_pos rfl]

/-- The update takes the old listener out of the registry. -/
theorem proceed_takes {plan : UpdatePlan} (hcall : s.base.calls i = .updateTaking plan)
    (htakes : s.takesListener (s.base.calls i) = true) :
    plan.mustStopOld = true ∧ (s.proceed i ok).base.spec = s.base.spec ∧ (s.proceed i ok).listenerKept i = false ∧
      (s.proceed i ok).stopped i = true ∧ ∃ k, (s.proceed i ok).base.calls i = .updateStopping plan k := by
  obtain ⟨-, hlistener, hstopped⟩ := proceed_kept s i ok
  rw [htakes, Bool.or_true] at hstopped
  rw [hcall] at htakes
  obtain ⟨hmust, hstored⟩ := Bool.and_eq_true_iff.1 htakes
  obtain ⟨k, hk⟩ := Option.isSome_iff_exists.1 hstored
  obtain ⟨m, hm, hl⟩ := Option.bind_eq_some_iff.1 hk
  have hnext : (s.proceed i ok).base =
      { s.base with managed := some { m with listener := none } }.goes i (.updateStopping plan k) := by
    simp [proceed_base, hcall, ListenerState.advance, ListenerCall.isUpdate, hmust, hm, hl]
  have hlost : s.base.listenersKept (s.proceed i ok).base = false := by
    refine ListenerState.not_listenersKept_of_stored ?_
    rw [hk, hnext]
    exact (Option.some_ne_none k).symm
  rw [hlost, Bool.and_false] at hlistener
  refine ⟨hmust, by rw [hnext]; rfl, hlistener, hstopped, k, ?_⟩
  rw [hnext, ListenerState.calls_goes, if_pos rfl]

/-- There is no old listener to stop, or none to take. -/
theorem proceed_leaves {plan : UpdatePlan} (hcall : s.base.calls i = .updateTaking plan)
    (htakes : s.takesListener (s.base.calls i) = false) :
    (s.proceed i ok).base = s.base.goes i (.updateChecking plan) := by
  rw [proceed_base, hcall]
  simp only [ListenerState.advance, hcall]
  split
  · next hmust =>
    have hstored : s.base.stored = none := by simpa [takesListener, hcall, hmust] using htakes
    simp only [ListenerCall.isUpdate, Bool.true_or, if_true]
    split
    · next m hm =>
      have hl : m.listener = none := by simpa [ListenerState.stored, hm] using hstored
      rw [hl]
    · rfl
  · rfl

/-- A call that goes on has the account of its next section. -/
theorem proceed_accounts (h : s.Accounts i (s.base.calls i)) (hidle : s.base.calls i ≠ .idle)
    (hok : s.refusal valid ok (s.base.calls i) = none) :
    (s.proceed i ok).Accounts i ((s.proceed i ok).base.calls i) := by
  have hnone : (s.proceed i ok).refused i = none := h.none_refused hidle
  by_cases hearly : (s.base.calls i).early = false
  · exact accounts_of_not_early hnone (ListenerState.advance_not_early _ _ _ hearly)
  cases hcall : s.base.calls i with
  | updateReading state running base values =>
    rw [hcall] at h
    obtain ⟨-, hspec, hlistener, hstopped⟩ := h
    have hnext : (s.proceed i ok).base =
        s.base.goes i (.updateBinding ⟨state, running, s.base.spec state, values.apply base, values.enabled⟩) := by
      simp [proceed_base, hcall, ListenerState.advance, ListenerCall.isUpdate]
    obtain ⟨hspec', hlistener', hstopped', hcalls⟩ := proceed_goes hnext (by rw [hcall]; rfl)
    rw [hcalls]
    exact ⟨hnone, hspec'.trans hspec, hlistener'.trans hlistener, hstopped'.trans hstopped⟩
  | updateBinding plan =>
    rw [hcall] at h
    obtain ⟨-, hspec, hlistener, hstopped⟩ := h
    have hnext : (s.proceed i ok).base = s.base.goes i (.updateTaking plan) := by
      simp [proceed_base, hcall, ListenerState.advance, ListenerCall.isUpdate]
    obtain ⟨hspec', hlistener', hstopped', hcalls⟩ := proceed_goes hnext (by rw [hcall]; rfl)
    rw [hcalls]
    exact ⟨hnone, hspec'.trans hspec, hlistener'.trans hlistener, hstopped'.trans hstopped⟩
  | updateTaking plan =>
    rw [hcall] at h
    obtain ⟨-, hspec, hlistener, hstopped⟩ := h
    cases htakes : s.takesListener (s.base.calls i) with
    | true =>
      obtain ⟨hmust, hspecs, hlistener', hstopped', k, hcalls⟩ := proceed_takes hcall htakes
      rw [hcalls]
      exact ⟨hnone, (proceed_specKept hspecs).trans hspec, hlistener', hstopped', hmust⟩
    | false =>
      obtain ⟨hspec', hlistener', hstopped', hcalls⟩ := proceed_goes (proceed_leaves hcall htakes) htakes
      rw [hcalls]
      refine ⟨hnone, hspec'.trans hspec, ?_, fun hs => ?_⟩
      · rw [hlistener', hlistener, hstopped', hstopped]
        rfl
      · rw [hstopped', hstopped] at hs
        cases hs
  | updateStopping plan k =>
    rw [hcall] at h
    obtain ⟨-, hspec, hlistener, hstopped, hmust⟩ := h
    have hnext : (s.proceed i ok).base = (s.base.cancel k).goes i (.updateChecking plan) := by
      simp [proceed_base, hcall, ListenerState.advance]
    obtain ⟨-, hlistener', hstopped'⟩ := proceed_kept s i ok
    have hspec' : (s.proceed i ok).specKept i = s.specKept i := proceed_specKept (by rw [hnext]; rfl)
    rw [hlistener, Bool.false_and] at hlistener'
    rw [hstopped, Bool.true_or] at hstopped'
    rw [hnext, ListenerState.calls_goes, if_pos rfl]
    refine ⟨hnone, hspec'.trans hspec, ?_, fun _ => hmust⟩
    rw [hlistener', hstopped']
    rfl
  | updateChecking plan =>
    rw [hcall] at h
    obtain ⟨-, hspec, hlistener, hmust⟩ := h
    have hnext : (s.proceed i ok).base = s.base.goes i (.updateWriting plan) := by
      have hold : s.base.spec plan.state = plan.old := by
        by_contra hne
        simp [refusal, hcall, hne] at hok
      simp [proceed_base, hcall, ListenerState.advance, hold]
    obtain ⟨hspec', hlistener', hstopped', hcalls⟩ := proceed_goes hnext (by rw [hcall]; rfl)
    rw [hcalls]
    refine ⟨hnone, hspec'.trans hspec, ?_, fun hs => hmust (hstopped'.symm.trans hs)⟩
    rw [hlistener', hlistener, hstopped']
  | updateWriting plan =>
    refine accounts_of_not_early hnone ?_
    simp only [proceed_base, hcall, ListenerCall.isUpdate, Bool.true_or, ListenerState.advance, if_true]
    rw [ListenerState.calls_goes, if_pos rfl]
    split <;> rfl
  | _ =>
    rw [hcall] at hearly
    exact absurd rfl hearly

/-- A step of one call leaves what the others have done. -/
theorem Advances.others {s' : UpdateCalls} (h : Advances valid s i ok s') {j : Nat} (hj : j ≠ i) :
    s'.base.calls j = s.base.calls j ∧ s'.refused j = s.refused j ∧ s'.specKept j = s.specKept j ∧
      s'.listenerKept j = s.listenerKept j ∧ s'.stopped j = s.stopped j := by
  have hupdate : ∀ {α : Type} (f : Nat → α) (a : α), update f i a j = f j := fun f a => Function.update_of_ne hj a f
  cases h with
  | checks => exact ⟨rfl, rfl, rfl, rfl, rfl⟩
  | full | refused => exact ⟨hupdate _ _, hupdate _ _, rfl, rfl, rfl⟩
  | proceeds => exact ⟨s.base.advance_calls_other _ hj, rfl, hupdate _ _, hupdate _ _, hupdate _ _⟩

theorem begins_others (s : UpdateCalls) (op : ListenerOp) {j : Nat} (hj : j ≠ op.caller) :
    (s.begins op).base.calls j = s.base.calls j ∧ (s.begins op).refused j = s.refused j ∧
      (s.begins op).specKept j = s.specKept j ∧ (s.begins op).listenerKept j = s.listenerKept j ∧
        (s.begins op).stopped j = s.stopped j := by
  have hupdate : ∀ {α : Type} (f : Nat → α) (a : α), update f op.caller a j = f j :=
    fun f a => Function.update_of_ne hj a f
  exact ⟨s.base.begin_calls_other _ _ hj, hupdate _ _, hupdate _ _, hupdate _ _, hupdate _ _⟩

theorem Accounted.of_call {s' : UpdateCalls} (h : s.Accounted) (hcall : s'.Accounts i (s'.base.calls i))
    (hothers : ∀ j, j ≠ i → s'.base.calls j = s.base.calls j ∧ s'.refused j = s.refused j ∧
      s'.specKept j = s.specKept j ∧ s'.listenerKept j = s.listenerKept j ∧ s'.stopped j = s.stopped j) :
    s'.Accounted := by
  intro j
  by_cases hj : j = i
  · rw [hj]
    exact hcall
  · obtain ⟨hcalls, hrefused, hspec, hlistener, hstopped⟩ := hothers j hj
    rw [hcalls, accounts_congr hrefused hspec hlistener hstopped]
    exact h j

/-- A call begins with nothing done. -/
theorem begins_accounts (s : UpdateCalls) (op : ListenerOp) (hidle : s.base.calls op.caller = .idle) :
    (s.begins op).Accounts op.caller ((s.begins op).base.calls op.caller) := by
  have hnone : (s.begins op).refused op.caller = none := Function.update_self ..
  have hspec : (s.begins op).specKept op.caller = s.base.specsKept (s.begins op).base := Function.update_self ..
  have hlistener : (s.begins op).listenerKept op.caller = s.base.listenersKept (s.begins op).base :=
    Function.update_self ..
  have hstopped : (s.begins op).stopped op.caller = false := Function.update_self ..
  by_cases hearly : ((s.begins op).base.calls op.caller).early = false
  · exact accounts_of_not_early hnone hearly
  rw [Bool.not_eq_false] at hearly
  obtain ⟨state, running, spec, values, hnext⟩ := ListenerState.begin_early hidle hearly
  replace hnext : (s.begins op).base = _ := hnext
  rw [hnext] at hspec hlistener ⊢
  rw [ListenerState.calls_goes, if_pos rfl]
  exact ⟨hnone, hspec.trans (ListenerState.specsKept_of_eq rfl),
    hlistener.trans (ListenerState.listenersKept_of_eq rfl rfl), hstopped⟩

theorem Accounts.kept {call : ListenerCall} (h : s.Accounts i call) (hearly : call.early = true) :
    s.specKept i = true ∧ s.listenerKept i = !s.stopped i := by
  cases call with
  | updateReading | updateBinding | updateTaking =>
    obtain ⟨-, hspec, hlistener, hstopped⟩ := h
    exact ⟨hspec, by rw [hlistener, hstopped]; rfl⟩
  | updateStopping =>
    obtain ⟨-, hspec, hlistener, hstopped, -⟩ := h
    exact ⟨hspec, by rw [hlistener, hstopped]; rfl⟩
  | updateChecking | updateWriting => exact ⟨h.2.1, h.2.2.1⟩
  | _ => cases hearly

/-- The capacity is checked before a section only while the old listener is in place. -/
theorem Accounts.checks {call : ListenerCall} {plan : UpdatePlan} (h : s.Accounts i call)
    (hplan : call.capacityCheck = some plan) : call.early = true ∧ s.stopped i = false := by
  cases call with
  | updateBinding | updateTaking => exact ⟨rfl, h.2.2.2⟩
  | updateWriting plan' =>
    refine ⟨rfl, ?_⟩
    cases hstopped : s.stopped i with
    | false => rfl
    | true =>
      simp only [ListenerCall.capacityCheck, h.2.2.2 hstopped, if_true] at hplan
      cases hplan
  | _ => cases hplan

theorem refusal_early {call : ListenerCall} {r : UpdateRefusal} (h : s.refusal valid ok call = some r) :
    call.early = true := by
  cases call <;> first | rfl | cases h

/-- A call is refused before it writes. -/
theorem Accounts.after_refuse (h : s.Accounts i (s.base.calls i)) (hearly : (s.base.calls i).early = true)
    {r : UpdateRefusal} : (s.refuse i r).Accounts i ((s.refuse i r).base.calls i) := by
  simp only [refuse]
  rw [ListenerState.calls_goes, if_pos rfl]
  exact fun _ => (h.kept hearly).1

/-- The account of a call that makes a step. -/
theorem Advances.accounts {s' : UpdateCalls} (h : Advances valid s i ok s') (hacc : s.Accounts i (s.base.calls i))
    (hidle : s.base.calls i ≠ .idle) : s'.Accounts i (s'.base.calls i) := by
  cases h with
  | checks plan hplan => exact (accounts_congr rfl rfl rfl rfl).2 hacc
  | full plan hplan => exact hacc.after_refuse (hacc.checks hplan).1
  | refused r hr => exact hacc.after_refuse (refusal_early hr)
  | proceeds hok => exact proceed_accounts hacc hidle hok

theorem step_accounted (valid : DatagramSpec → Bool) (s : UpdateCalls) (e : UpdateEvent) (h : s.Accounted) :
    (s.step valid e).Accounted := by
  cases e with
  | call op =>
    simp only [step]
    split
    · next hidle => exact h.of_call (begins_accounts s op hidle) fun j hj => begins_others s op hj
    · next hidle =>
      have hadv := advance_advances valid s op.caller op.ok
      exact h.of_call (hadv.accounts (h op.caller) hidle) fun j hj => hadv.others hj
  | acquire state =>
    simp only [step]
    split
    · exact fun j => (accounts_congr rfl rfl rfl rfl).2 (h j)
    · exact h
  | release state => exact fun j => (accounts_congr rfl rfl rfl rfl).2 (h j)

/-- A call that has taken the old listener is refused only by what it looks at again. -/
theorem Accounts.refusal_iff {call : ListenerCall} (h : s.Accounts i call) (hstopped : s.stopped i = true) :
    s.refusal valid ok call = none ↔ s.Agrees call := by
  cases call with
  | updateReading | updateBinding | updateTaking =>
    rw [h.2.2.2] at hstopped
    cases hstopped
  | updateChecking plan => simp [refusal, Agrees]
  | updateWriting plan => simp [refusal, Agrees]
  | _ => simp [refusal, Agrees]

theorem Accounts.refuse_iff (h : s.Accounts i (s.base.calls i)) (hearly : (s.base.calls i).early = true)
    {r : UpdateRefusal} :
    ((s.refuse i r).refused i ≠ none → (s.refuse i r).specKept i = true ∧ (s.refuse i r).listenerKept i = true) ↔
      s.stopped i = false := by
  obtain ⟨hspec, hlistener⟩ := h.kept hearly
  simp [refuse, hspec, hlistener]

/-- A step of a call leaves it atomic exactly if it is not refused with the old
listener taken. -/
theorem Advances.atomic_iff {s' : UpdateCalls} (h : Advances valid s i ok s') (hatomic : s.Atomic)
    (hacc : s.Accounts i (s.base.calls i)) (hidle : s.base.calls i ≠ .idle) :
    s'.Atomic ↔ (s.stopped i = true → s.Agrees (s.base.calls i)) := by
  have hothers : s'.Atomic ↔ (s'.refused i ≠ none → s'.specKept i = true ∧ s'.listenerKept i = true) := by
    refine ⟨fun ha => ha i, fun hi j => ?_⟩
    by_cases hj : j = i
    · rw [hj]
      exact hi
    · obtain ⟨-, hrefused, hspec, hlistener, -⟩ := h.others hj
      rw [hrefused, hspec, hlistener]
      exact hatomic j
  have hnone : s.refused i = none := hacc.none_refused hidle
  rw [hothers]
  cases h with
  | checks plan hplan =>
    obtain ⟨-, hstopped⟩ := hacc.checks hplan
    simp [hnone, hstopped]
  | full plan hplan =>
    obtain ⟨hearly, hstopped⟩ := hacc.checks hplan
    rw [hacc.refuse_iff hearly]
    simp [hstopped]
  | refused r hr =>
    rw [hacc.refuse_iff (refusal_early hr)]
    constructor
    · intro hstopped hs
      rw [hstopped] at hs
      cases hs
    · intro hagrees
      rw [← Bool.not_eq_true]
      intro hs
      rw [(hacc.refusal_iff hs).2 (hagrees hs)] at hr
      cases hr
  | proceeds hok =>
    refine ⟨fun _ hs => (hacc.refusal_iff hs).1 hok, fun _ hr => absurd ?_ hr⟩
    exact hnone

theorem step_atomic_iff (valid : DatagramSpec → Bool) (s : UpdateCalls) (e : UpdateEvent) (hatomic : s.Atomic)
    (hacc : s.Accounted) : (s.step valid e).Atomic ↔ s.Finds e := by
  cases e with
  | call op =>
    simp only [step]
    split
    · next hidle =>
      have hagrees : s.Agrees (s.base.calls op.caller) := by
        rw [hidle]
        trivial
      refine iff_of_true (fun j hj => ?_) fun _ => hagrees
      by_cases hji : j = op.caller
      · rw [hji] at hj
        exact absurd (Function.update_self ..) hj
      · obtain ⟨-, hrefused, hspec, hlistener, -⟩ := begins_others s op hji
        rw [hrefused] at hj
        rw [hspec, hlistener]
        exact hatomic j hj
    · next hidle => exact (advance_advances valid s op.caller op.ok).atomic_iff hatomic (hacc op.caller) hidle
  | acquire state =>
    simp only [step]
    split
    · exact iff_of_true hatomic trivial
    · exact iff_of_true hatomic trivial
  | release state => exact iff_of_true hatomic trivial

end

theorem opened_accounted (base : ListenerState) (active : Nat → Nat) : (opened base active).Accounted :=
  fun _ h => absurd rfl h

/-- A refused call never wrote the definition. -/
theorem refused_spec_kept (valid : DatagramSpec → Bool) (base : ListenerState) (active : Nat → Nat)
    (events : List UpdateEvent) (i : Nat)
    (h : (run (step valid) (opened base active) events).refused i ≠ none) :
    (run (step valid) (opened base active) events).specKept i = true := by
  have hacc := run_inv Accounted (step_accounted valid) (opened_accounted base active) events i
  cases hcall : (run (step valid) (opened base active) events).base.calls i with
  | idle =>
    rw [hcall] at hacc
    exact hacc h
  | _ => exact absurd (hacc.none_refused (by rw [hcall]; exact ListenerCall.noConfusion)) h

/-- In every run of calls on one name and of its associations, from any proxy state,
the refused updates have changed nothing exactly if each update that has taken the
old listener finds, when it looks again, the definition as it read it and no more
associations than it will allow. -/
theorem refused_keep_iff (valid : DatagramSpec → Bool) (base : ListenerState) (active : Nat → Nat)
    (events : List UpdateEvent) :
    (∀ pre, pre <+: events → (run (step valid) (opened base active) pre).Atomic) ↔
      Along (step valid) Finds (opened base active) events :=
  prefixes_iff_along (step_accounted valid) (step_atomic_iff valid) (fun _ h => absurd rfl h)
    (opened_accounted base active) events

/-! ## A refused call -/

/-- A proxy with its listener. -/
def serving : ListenerState := run ListenerState.step ListenerState.start (ListenerState.created 0)

def updates (caller : Nat) (values : DatagramUpdate) : UpdateEvent := .call ⟨caller, .update values, true⟩

def goesOn (caller n : Nat) : List UpdateEvent := List.replicate n (.call ⟨caller, .advance, true⟩)

/-- One call moves the proxy to another port and has stopped the old listener when
another call changes the upstream. -/
def overtaken : List UpdateEvent :=
  updates 0 { listen := some 7 } :: goesOn 0 6 ++ updates 1 { upstream := some 99 } :: goesOn 1 7 ++ goesOn 0 1

/-- The first call is refused, and the proxy that had a listener has none. -/
theorem refused_update_stops_listener :
    serving.stored = some 0 ∧ serving.liveTasks = [0] ∧
      (let s := run (step fun _ => true) (opened serving fun _ => 0) overtaken
       s.refused 0 = some .conflict ∧ s.base.stored = none ∧ s.base.liveTasks = [] ∧ ¬ s.Atomic) := by
  refine ⟨by decide, by decide, by decide, by decide, by decide, ?_⟩
  intro h
  have hkept := h 0 (by decide)
  revert hkept
  decide

end UpdateCalls

end Eggchaos
