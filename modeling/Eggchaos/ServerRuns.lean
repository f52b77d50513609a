import Eggchaos.ServerTarget
/-!
# Strict runs over the server's own state

The driver owns a generation of each resource, and publishes over that generation
only. This keeps the plans of others as long as a generation stands for one
publication. The read-back of a datagram publication may find a later one, and a
proxy created again counts from one: these are the two ways in which a run takes
somebody else's plan for its own.
-/

namespace Eggchaos
open Lib

/-! ## The driver's entries -/

/-- Every event has an entry. -/
def Covers (owned : Owned) (events : List CompiledEventV2) : Prop :=
  ∀ event ∈ events, (owned.get event.action.resource.key).isSome

/-- What the phase of a strict run says about the owned entries. -/
def Phased (owned : Owned) : DrivePhase → Prop
  | .waiting events => Covers owned events
  | .snapshotting a | .readingSibling a _ => Covers owned (a.event :: a.rest)
  | .readingGeneration _ _ => False
  | .publishing a _ expected => Covers owned (a.event :: a.rest) ∧
      ∃ o, owned.get a.event.action.resource.key = some o ∧ o.lastOwnedGeneration = expected
  | .restoring entry todo => ∀ o ∈ entry :: todo, o ∈ owned.map (·.2)
  | .republishing entry current todo => (∀ o ∈ entry :: todo, o ∈ owned.map (·.2)) ∧ current = entry.lastOwnedGeneration
  | .finished => True

namespace DriveState
variable {d : Drive}

/-- The driver goes on by itself: to a phase that suits its entries, with the
target and the entries left alone. -/
structure Goes (s s' : DriveState) : Prop where
  target : s'.target = s.target
  owned : s'.owned = s.owned
  phased : Phased s.owned s'.phase

theorem restoreNext_goes {s : DriveState} {todo : List OwnedResource} (h : ∀ o ∈ todo, o ∈ s.owned.map (·.2)) :
    Goes s (s.restoreNext todo) := by
  cases todo with
  | nil => exact ⟨rfl, rfl, trivial⟩
  | cons entry todo => exact ⟨rfl, rfl, h⟩

theorem enterCleanup_goes (s : DriveState) (status : ScheduleRunStatus) : Goes s (s.enterCleanup d status) := by
  unfold enterCleanup
  cases d.compiled.cleanup with
  | leave => exact ⟨rfl, rfl, trivial⟩
  | restoreInitial =>
    obtain ⟨ht, ho, hp⟩ := @restoreNext_goes { s with status } (s.owned.map (·.2)) fun _ h => h
    exact ⟨ht, ho, hp⟩

theorem fail_goes (s : DriveState) (reason : String) : Goes s (s.fail d reason) := by
  obtain ⟨ht, ho, hp⟩ := enterCleanup_goes (d := d) { s with failure := some reason } .failed
  exact ⟨ht, ho, hp⟩

theorem next_goes {s : DriveState} {events : List CompiledEventV2} (h : Covers s.owned events) :
    Goes s (s.next d events) := by
  cases events with
  | nil => exact enterCleanup_goes s .completed
  | cons event rest => exact ⟨rfl, rfl, h⟩

theorem record_goes {s : DriveState} {a : Applying} (h : Covers s.owned a.rest) (upstream downstream : Nat) :
    Goes s (s.record d a upstream downstream) := by
  unfold record
  simp only
  generalize s.events ++ _ = events
  obtain ⟨ht, ho, hp⟩ := next_goes (d := d) (s := { s with applied := s.applied + 1, events }) h
  exact ⟨ht, ho, hp⟩

theorem expect_goes (hstrict : strict d = true) {s : DriveState} {a : Applying} (h : Covers s.owned (a.event :: a.rest))
    (plan : TargetPlan) : Goes s (s.expect d a plan) := by
  obtain ⟨o, ho⟩ := Option.isSome_iff_exists.1 (h a.event (by simp))
  simp only [expect, hstrict, ho]
  exact ⟨rfl, rfl, h, o, ho, rfl⟩

theorem begin_goes (hstrict : strict d = true) {s : DriveState} {event : CompiledEventV2} {rest : List CompiledEventV2}
    (h : Covers s.owned (event :: rest)) (now : Nat) : Goes s (s.begin d now event rest) := by
  unfold begin
  split
  · split
    · exact fail_goes s _
    · exact expect_goes hstrict h _
  · split
    · exact fail_goes s _
    · exact expect_goes hstrict h _
  · exact ⟨rfl, rfl, h⟩
  · exact ⟨rfl, rfl, h⟩

theorem noteCleanup_goes {s : DriveState} {todo : List OwnedResource} (h : ∀ o ∈ todo, o ∈ s.owned.map (·.2))
    (r : ScheduleResource) (outcome : CleanupResourceOutcome) : Goes s (s.noteCleanup r outcome todo) := by
  obtain ⟨ht, ho, hp⟩ := restoreNext_goes (s := { s with cleanup := s.cleanup ++ [⟨r, outcome⟩] }) h
  exact ⟨ht, ho, hp⟩

/-- A read of the target is answered. -/
theorem onCall_goes (hstrict : strict d = true) {s : DriveState} (h : Phased s.owned s.phase)
    (hread : s.request d = none) (refused : Option TargetError) (grown : Nat) : Goes s (s.onCall d refused grown) := by
  unfold onCall
  cases hphase : s.phase with
  | waiting events => exact ⟨rfl, rfl, h⟩
  | finished => exact ⟨rfl, rfl, h⟩
  | snapshotting a =>
    rw [hphase] at h
    simp only [onSnapshot]
    split
    · exact fail_goes s _
    · split
      · exact fail_goes s _
      · rw [if_pos hstrict]
        exact expect_goes hstrict h _
  | readingGeneration a plan =>
    rw [hphase] at h
    exact absurd h id
  | publishing a plan expected => simp [request, hphase] at hread
  | readingSibling a generation =>
    rw [hphase] at h
    have hrest : Covers s.owned a.rest := fun event he => h event (List.mem_cons_of_mem _ he)
    simp only [onSibling]
    split
    · exact fail_goes s _
    · split
      · exact record_goes hrest _ _
      · exact record_goes hrest _ _
  | restoring entry todo =>
    rw [hphase] at h
    have htodo : ∀ o ∈ todo, o ∈ s.owned.map (·.2) := fun o ho => h o (List.mem_cons_of_mem _ ho)
    simp only [onRestore]
    split
    · exact noteCleanup_goes htodo _ _
    · split
      · exact noteCleanup_goes htodo _ _
      · next hgen => exact ⟨rfl, rfl, h, by simpa using hgen⟩
  | republishing entry current todo => simp [request, hphase] at hread

/-- A publication that fails, or one of the cleanup, leaves the entries alone. -/
theorem onAnswer_goes {s : DriveState} (h : Phased s.owned s.phase) {answer : Except TargetError Receipt}
    (hanswer : (∀ a plan expected, s.phase ≠ .publishing a plan expected) ∨ ∃ e, answer = .error e) :
    Goes s (s.onAnswer d answer) := by
  unfold onAnswer
  cases hphase : s.phase with
  | publishing a plan expected =>
    rcases hanswer with hnot | ⟨e, rfl⟩
    · exact absurd hphase (hnot a plan expected)
    · exact fail_goes s _
  | republishing entry current todo =>
    rw [hphase] at h
    have htodo : ∀ o ∈ todo, o ∈ s.owned.map (·.2) := fun o ho => h.1 o (List.mem_cons_of_mem _ ho)
    cases answer with
    | error e => exact noteCleanup_goes htodo _ _
    | ok receipt =>
      obtain ⟨ht, ho, hp⟩ := noteCleanup_goes
        (s := { s with own := fun r => if r = entry.resource then some entry.initialPlan else s.own r }) htodo
        entry.resource .restored
      exact ⟨ht, ho, hp⟩
  | _ => exact ⟨rfl, rfl, h⟩

/-- The receipt of an event's publication moves its entry on. -/
theorem onAnswer_published {s : DriveState} (hkeyed : s.owned.Keyed) {a : Applying} {plan : TargetPlan} {expected : Nat}
    (hphase : s.phase = .publishing a plan expected) (h : Phased s.owned s.phase) (receipt : Receipt) :
    let s' := s.onAnswer d (.ok receipt)
    s'.target = s.target ∧ s'.owned.Keyed ∧ Phased s'.owned s'.phase ∧
      s'.owned.map (·.2) = (s.owned.map (·.2)).map (OwnedResource.advance a.event.action.resource receipt.generation) := by
  rw [hphase] at h
  obtain ⟨hcovers, o, ho, -⟩ := h
  obtain ⟨hkeyed', hentries, hkeys⟩ := hkeyed.update ho receipt.generation
  have hcovers' : Covers (s.owned.update a.event.action.resource.key a.event.action.resource receipt.generation)
      (a.event :: a.rest) := by
    intro event hevent
    rw [Owned.get_isSome hkeys]
    exact hcovers event hevent
  have hrest : Covers (s.owned.update a.event.action.resource.key a.event.action.resource receipt.generation) a.rest :=
    fun event hevent => hcovers' event (List.mem_cons_of_mem _ hevent)
  have hgoes : Goes { s with
      owned := s.owned.update a.event.action.resource.key a.event.action.resource receipt.generation
      own := fun r' => if r' = a.event.action.resource then some plan else s.own r'
      phase := .publishing a plan expected } (s.onAnswer d (.ok receipt)) := by
    simp only [onAnswer, hphase]
    cases a.event.action.resource.transport with
    | stream => exact ⟨rfl, rfl, hcovers'⟩
    | datagram =>
      cases a.event.action.resource.direction with
      | upstream => exact record_goes hrest _ _
      | downstream => exact record_goes hrest _ _
  obtain ⟨htarget, howned, hphased⟩ := hgoes
  refine ⟨htarget, ?_, ?_, ?_⟩
  · rw [howned]
    exact hkeyed'
  · rw [howned]
    exact hphased
  · rw [howned]
    exact hentries

end DriveState

namespace ServerRun
variable {d : Drive}

/-! ## What a run promises -/

/-- The receipt that this step hands to the driver. -/
def receipt (d : Drive) (s : ServerRun) : Op → Option Receipt
  | .call =>
    match s.preparing, s.drive.request d, s.pending with
    | none, some request, none =>
      match publishSection s.drive.target request.resource request.expected request.plan request.seedNamespace,
        request.resource.transport with
      | .published next, .stream => some ⟨next.generation, next.generation⟩
      | _, _ => none
    | none, some request, some pending => (s.secondAnswer request pending).toOption
    | _, _, _ => none
  | _ => none

/-- A receipt carries the generation that its publication made, and the run
replaces no plan that somebody else has installed since its preparation. -/
structure Faithful (d : Drive) (s : ServerRun) (op : Op) : Prop where
  receipt : ∀ receipt, s.receipt d op = some receipt → receipt.generation = receipt.created
  spares : op = .call → ∀ r cell, s.drive.target.cells r = some cell → cell.origin = .external →
    (s.step d op).drive.target.cells r = some cell

def Section.isPublished : Section → Bool
  | .published _ => true
  | _ => false

/-- The step publishes to a policy that is not the prepared one, or reads back a
generation that is not the published one. -/
def Slips (d : Drive) (s : ServerRun) : Op → Prop
  | .call =>
    match s.preparing, s.drive.request d, s.pending with
    | none, some request, none =>
      Section.isPublished (publishSection s.drive.target request.resource request.expected request.plan
        request.seedNamespace) = true ∧ s.adopted request.resource ≠ some (s.object request.resource)
    | none, some request, some (.receipt created) =>
      (s.drive.target.cells request.resource).any (·.generation ≠ created) = true
    | _, _, _ => False
  | _ => False

instance (d : Drive) (s : ServerRun) (op : Op) : Decidable (s.Slips d op) := by
  unfold Slips
  split
  · split <;> infer_instance
  · infer_instance

/-! ## What is kept -/

/-- From generation `n` of the prepared policy on, that generation is not
somebody else's; any other policy is. -/
structure Guarded (s : ServerRun) (r : ScheduleResource) (n : Nat) : Prop where
  adopted : ∃ k, s.adopted r = some k ∧ k ≤ s.object r
  same : s.adopted r = some (s.object r) → ∀ cell, s.drive.target.cells r = some cell →
    n ≤ cell.generation ∧ (cell.generation = n → cell.origin ≠ .external)
  other : s.adopted r ≠ some (s.object r) → ∀ cell, s.drive.target.cells r = some cell → cell.origin = .external

theorem Guarded.congr {s s' : ServerRun} {r : ScheduleResource} {n : Nat} (h : Guarded s r n)
    (hcells : s'.drive.target.cells r = s.drive.target.cells r) (hobject : s'.object r = s.object r)
    (hadopted : s'.adopted r = s.adopted r) : Guarded s' r n := by
  refine ⟨?_, ?_, ?_⟩
  · rw [hadopted, hobject]
    exact h.adopted
  · rw [hadopted, hobject, hcells]
    exact h.same
  · rw [hadopted, hobject, hcells]
    exact h.other

/-- The entries are guarded, and a resource without one has not been touched. -/
structure Held (s : ServerRun) : Prop where
  keyed : s.drive.owned.Keyed
  owned : ∀ o ∈ s.drive.owned.map (·.2), Guarded s o.resource o.lastOwnedGeneration
  adopts : ∀ r, (s.adopted r).isSome → (s.drive.owned.get r.key).isSome
  fresh : ∀ r, s.adopted r = none → ∀ cell, s.drive.target.cells r = some cell → cell.origin ≠ .external

structure Sound (d : Drive) (s : ServerRun) : Prop extends Held s where
  prepares : ∀ events, s.preparing = some events → ∀ event ∈ d.compiled.events,
    (s.drive.owned.get event.action.resource.key).isSome ∨ event ∈ events
  heads : ∀ events, s.preparing = some events → ∃ event rest, events = event :: rest ∧
    s.drive.owned.get event.action.resource.key = none
  phased : s.preparing = none → Phased s.drive.owned s.drive.phase
  idle : s.preparing.isSome ∨ s.drive.request d = none → s.pending = none
  created : ∀ created request, s.pending = some (.receipt created) → s.drive.request d = some request →
    Guarded s request.resource created

/-- The publication that is awaited is over a generation the run owns. -/
theorem Sound.requested {s : ServerRun} (h : Sound d s) (hrun : s.preparing = none) {request : PublishRequest}
    (hr : s.drive.request d = some request) : Guarded s request.resource request.expected := by
  have hphased := h.phased hrun
  unfold DriveState.request at hr
  split at hr
  · next a plan expected hphase =>
    cases hr
    rw [hphase] at hphased
    obtain ⟨-, o, ho, hexpected⟩ := hphased
    obtain ⟨hres, hmem⟩ := h.keyed.get_resource ho
    have hguarded := h.owned o hmem
    rw [hres, hexpected] at hguarded
    exact hguarded
  · next entry current todo hphase =>
    cases hr
    rw [hphase] at hphased
    have hguarded := h.owned entry (hphased.1 entry (by simp))
    rw [← hphased.2] at hguarded
    exact hguarded
  · cases hr

/-- A section that publishes finds the expected generation and makes the next. -/
theorem publishSection_published {t : Target} {r : ScheduleResource} {expected : Nat} {plan : TargetPlan}
    {seedNamespace : UInt64} {next : Cell} (h : publishSection t r expected plan seedNamespace = .published next) :
    ∃ cell, t.cells r = some cell ∧ cell.generation = expected ∧ next.generation = expected + 1 ∧ next.origin = .run := by
  have hsuccessor : ∀ (cell : Cell) plan overflow, cell.generation = expected →
      cell.successor plan seedNamespace overflow = .published next →
      next.generation = expected + 1 ∧ next.origin = .run := by
    intro cell plan overflow hgen hs
    unfold Cell.successor at hs
    split at hs
    · cases hs
    · cases hs
      exact ⟨by rw [hgen], rfl⟩
  unfold publishSection at h
  split at h
  · unfold publishDirectionExpected at h
    split at h
    · cases h
    · next cell hcell =>
      split at h
      · cases h
      · split at h
        · cases h
        · next hgen =>
          have hgen : cell.generation = expected := by simpa using hgen
          exact ⟨cell, hcell, hgen, hsuccessor cell _ _ hgen h⟩
  · unfold publishDatagramPlan at h
    split at h
    · cases h
    · split at h
      · cases h
      · next cell hcell =>
        split at h
        · cases h
        · next hgen =>
          have hgen : cell.generation = expected := by simpa using hgen
          exact ⟨cell, hcell, hgen, hsuccessor cell _ _ hgen h⟩
  · cases h

/-- Publishing over the prepared policy keeps what is guarded. -/
theorem Guarded.put {s : ServerRun} {r : ScheduleResource} {n : Nat} (h : Guarded s r n) {r' : ScheduleResource}
    {cell next : Cell} (hcell : s.drive.target.cells r' = some cell) (hnext : next.generation = cell.generation + 1)
    (horigin : r = r' → next.origin ≠ .external → s.adopted r' = some (s.object r')) {s' : ServerRun}
    (htarget : s'.drive.target = s.drive.target.put r' (some next)) (hobject : s'.object = s.object)
    (hadopted : s'.adopted = s.adopted) : Guarded s' r n := by
  by_cases hr : r = r'
  · subst hr
    have hcells : s'.drive.target.cells r = some next := by simp [htarget, Target.put]
    refine ⟨by rw [hadopted, hobject]; exact h.adopted, ?_, ?_⟩
    · rw [hadopted, hobject, hcells]
      rintro hsame _ ⟨⟩
      have hle := (h.same hsame cell hcell).1
      refine ⟨by omega, ?_⟩
      intro heq
      omega
    · rw [hadopted, hobject, hcells]
      rintro hother _ ⟨⟩
      by_contra hexternal
      exact hother (horigin rfl hexternal)
  · refine h.congr ?_ (by rw [hobject]) (by rw [hadopted])
    rw [htarget]
    simp only [Target.put, if_neg hr]

/-! ## The operations of others -/

/-- Somebody else leaves the run as it is, and what is guarded guarded. -/
theorem external_keeps (s : ServerRun) (op : Op) :
    ∃ target, (s.external op).drive = { s.drive with target } ∧ (s.external op).preparing = s.preparing ∧
      (s.external op).pending = s.pending ∧ (s.external op).adopted = s.adopted ∧
      (∀ r n, Guarded s r n → Guarded (s.external op) r n) ∧
      ∀ r, s.adopted r = none → ∀ cell, target.cells r = some cell →
        s.drive.target.cells r = some cell ∨ cell.origin ≠ .external := by
  have hsame : ∃ target, s.drive = { s.drive with target } ∧ s.preparing = s.preparing ∧ s.pending = s.pending ∧
      s.adopted = s.adopted ∧ (∀ r n, Guarded s r n → Guarded s r n) ∧
      ∀ r, s.adopted r = none → ∀ cell, target.cells r = some cell →
        s.drive.target.cells r = some cell ∨ cell.origin ≠ .external :=
    ⟨s.drive.target, rfl, rfl, rfl, rfl, fun _ _ h => h, fun _ _ _ h => .inl h⟩
  cases op with
  | publish r' plan seedNamespace =>
    simp only [external]
    split
    · exact hsame
    · next cell hcell =>
      split
      · exact hsame
      · refine ⟨_, rfl, rfl, rfl, rfl, fun r n h => ?_, ?_⟩
        swap
        · intro r hnone cell' hcell'
          simp only [Target.put] at hcell'
          split at hcell'
          · next hr =>
            subst hr
            cases hcell'
            exact .inr (by simp [origin, hnone])
          · exact .inl hcell'
        refine h.put hcell rfl ?_ rfl rfl rfl
        rintro rfl hnot
        obtain ⟨k, hk, -⟩ := h.adopted
        exact absurd (by simp [origin, hk]) hnot
  | delete proxy transport =>
    refine ⟨_, rfl, rfl, rfl, rfl, fun r n h => ?_, ?_⟩
    swap
    · intro r _ cell hcell
      simp only at hcell
      split at hcell
      · cases hcell
      · exact .inl hcell
    by_cases hr : belongs proxy transport r = true
    · have hcells : (s.external (.delete proxy transport)).drive.target.cells r = none := by simp [external, hr]
      refine ⟨h.adopted, ?_, ?_⟩
      · intro _ cell hcell
        rw [hcells] at hcell
        cases hcell
      · intro _ cell hcell
        rw [hcells] at hcell
        cases hcell
    · exact h.congr (by simp [external, hr]) rfl rfl
  | create proxy transport plans seedNamespace =>
    simp only [external]
    split
    · exact hsame
    · refine ⟨_, rfl, rfl, rfl, rfl, fun r n h => ?_, ?_⟩
      swap
      · intro r hnone cell hcell
        simp only at hcell
        split at hcell
        · cases hcell
          exact .inr (by simp [origin, hnone])
        · exact .inl hcell
      by_cases hr : belongs proxy transport r = true
      · -- the new policy is not the prepared one
        obtain ⟨k, hk, hle⟩ := h.adopted
        refine ⟨⟨k, hk, ?_⟩, ?_, ?_⟩
        · simp only [hr, if_true]
          omega
        · intro hadopted
          simp only [hr, if_true, hk, Option.some.injEq] at hadopted
          omega
        · simp only [hr, if_true]
          rintro - _ ⟨⟩
          simp [origin, hk]
      · exact h.congr (by simp [hr]) (by simp [hr]) rfl
  | due now => exact hsame
  | cancelled => exact hsame
  | call => exact hsame

/-- A change of the target alone keeps the run sound, if it keeps what is
guarded. -/
theorem Sound.retarget {s s' : ServerRun} (h : Sound d s) {target : Target} (hdrive : s'.drive = { s.drive with target })
    (hpreparing : s'.preparing = s.preparing) (hpending : s'.pending = s.pending) (hadopted : s'.adopted = s.adopted)
    (hguarded : ∀ r n, Guarded s r n → Guarded s' r n)
    (hfresh : ∀ r, s.adopted r = none → ∀ cell, target.cells r = some cell →
      s.drive.target.cells r = some cell ∨ cell.origin ≠ .external) : Sound d s' := by
  have howned : s'.drive.owned = s.drive.owned := by rw [hdrive]
  have hphase : s'.drive.phase = s.drive.phase := by rw [hdrive]
  have hrequest : s'.drive.request d = s.drive.request d := by rw [hdrive]; rfl
  have htarget : s'.drive.target = target := by rw [hdrive]
  refine ⟨⟨?_, ?_, ?_, ?_⟩, ?_, ?_, ?_, ?_, ?_⟩
  · rw [howned]
    exact h.keyed
  · rw [howned]
    exact fun o ho => hguarded _ _ (h.owned o ho)
  · rw [howned, hadopted]
    exact h.adopts
  · rw [hadopted, htarget]
    intro r hnone cell hcell
    rcases hfresh r hnone cell hcell with hold | hnew
    · exact h.fresh r hnone cell hold
    · exact hnew
  · rw [howned, hpreparing]
    exact h.prepares
  · rw [howned, hpreparing]
    exact h.heads
  · rw [howned, hpreparing, hphase]
    exact h.phased
  · rw [hpreparing, hrequest, hpending]
    exact h.idle
  · rw [hpending, hrequest]
    exact fun created request hc hr => hguarded _ _ (h.created created request hc hr)

/-! ## The steps of the run -/

/-- Outside the preparation and with nothing pending, a sound run is one whose
phase suits its entries. -/
theorem Held.sound {s : ServerRun} (h : Held s) (hpreparing : s.preparing = none) (hpending : s.pending = none)
    (hphased : Phased s.drive.owned s.drive.phase) : Sound d s := by
  refine ⟨h, ?_, ?_, fun _ => hphased, fun _ => hpending, ?_⟩
  · intro events he
    rw [hpreparing] at he
    cases he
  · intro events he
    rw [hpreparing] at he
    cases he
  · intro created request hc
    rw [hpending] at hc
    cases hc

/-- The driver goes on by itself. -/
theorem Sound.goes {s s' : ServerRun} (h : Sound d s) (hgoes : DriveState.Goes s.drive s'.drive)
    (hpreparing : s'.preparing = none) (hpending : s'.pending = none) (hobject : s'.object = s.object)
    (hadopted : s'.adopted = s.adopted) : Sound d s' := by
  have hguarded : ∀ r n, Guarded s r n → Guarded s' r n := fun r n hg =>
    hg.congr (by rw [hgoes.target]) (by rw [hobject]) (by rw [hadopted])
  refine Held.sound ⟨?_, ?_, ?_, ?_⟩ hpreparing hpending ?_
  · rw [hgoes.owned]
    exact h.keyed
  · rw [hgoes.owned]
    exact fun o ho => hguarded _ _ (h.owned o ho)
  · rw [hgoes.owned, hadopted]
    exact h.adopts
  · rw [hgoes.target, hadopted]
    exact h.fresh
  · rw [hgoes.owned]
    exact hgoes.phased

/-- A publication is answered, with a generation that is guarded. -/
theorem Sound.answer {s s' : ServerRun} (h : Sound d s) (hrun : s.preparing = none) {request : PublishRequest}
    (hr : s.drive.request d = some request) {answer : Except TargetError Receipt}
    (hanswer : ∀ receipt, answer = .ok receipt → Guarded s request.resource receipt.generation)
    (hdrive : s'.drive = s.drive.onAnswer d answer) (hpreparing : s'.preparing = none) (hpending : s'.pending = none)
    (hobject : s'.object = s.object) (hadopted : s'.adopted = s.adopted) : Sound d s' := by
  have hphased := h.phased hrun
  by_cases hother : (∀ a plan expected, s.drive.phase ≠ .publishing a plan expected) ∨ ∃ e, answer = .error e
  · have hgoes := DriveState.onAnswer_goes (d := d) hphased hother
    rw [← hdrive] at hgoes
    exact h.goes hgoes hpreparing hpending hobject hadopted
  · -- an event is published: its entry moves on to the receipt's generation
    simp only [not_or, not_forall, not_exists, ne_eq, not_not] at hother
    obtain ⟨⟨a, plan, expected, hphase⟩, hok⟩ := hother
    cases answer with
    | error e => exact absurd rfl (hok e)
    | ok receipt =>
      obtain ⟨htarget, hkeyed, hphased', hentries⟩ :=
        DriveState.onAnswer_published (d := d) h.keyed hphase hphased receipt
      rw [← hdrive] at htarget hkeyed hphased' hentries
      have hresource : request.resource = a.event.action.resource := by
        simp only [DriveState.request, hphase, Option.some.injEq] at hr
        rw [← hr]
      have hgenerated := hanswer receipt rfl
      rw [hresource] at hgenerated
      have hguarded : ∀ r n, Guarded s r n → Guarded s' r n := fun r n hg =>
        hg.congr (by rw [htarget]) (by rw [hobject]) (by rw [hadopted])
      refine Held.sound ⟨hkeyed, ?_, ?_, ?_⟩ hpreparing hpending hphased'
      · rw [hentries]
        intro o ho
        obtain ⟨o', ho', rfl⟩ := List.mem_map.1 ho
        by_cases hres : o'.resource = a.event.action.resource
        · simp only [OwnedResource.advance, hres, if_true]
          exact hguarded _ _ hgenerated
        · simp only [OwnedResource.advance, hres, if_false]
          exact hguarded _ _ (h.owned o' ho')
      · rw [hadopted]
        intro r hadopts
        obtain ⟨o, ho⟩ := Option.isSome_iff_exists.1 (h.adopts r hadopts)
        obtain ⟨hres, hmem⟩ := h.keyed.get_resource ho
        -- the entry is still there, under the same resource
        have hmem' : OwnedResource.advance a.event.action.resource receipt.generation o ∈ s'.drive.owned.map (·.2) := by
          rw [hentries]
          exact List.mem_map.2 ⟨o, hmem, rfl⟩
        obtain ⟨⟨k, o'⟩, hko, ho'⟩ := List.mem_map.1 hmem'
        have hkey := hkeyed.keys k o' hko
        simp only at ho'
        rw [ho', OwnedResource.advance_resource, hres] at hkey
        rw [Option.isSome_iff_ne_none]
        intro hnone
        exact Owned.get_none hnone (hkey ▸ hko)
      · rw [htarget, hadopted]
        exact h.fresh

/-! ## Preparation -/

theorem settlePreparation_sound {s : ServerRun} (h : Held s) (hpending : s.pending = none)
    {events : List CompiledEventV2} (hall : ∀ event ∈ d.compiled.events,
      (s.drive.owned.get event.action.resource.key).isSome ∨ event ∈ events) :
    Sound d (s.settlePreparation d events) := by
  have hsplit : (events.takeWhile fun event => (s.drive.owned.get event.action.resource.key).isSome) ++
      (events.dropWhile fun event => (s.drive.owned.get event.action.resource.key).isSome) = events :=
    List.takeWhile_append_dropWhile
  have htaken : ∀ event ∈ events.takeWhile fun event => (s.drive.owned.get event.action.resource.key).isSome,
      (s.drive.owned.get event.action.resource.key).isSome := 
    fun event he => List.all_eq_true.1 List.all_takeWhile event he
  unfold settlePreparation
  split
  · next hdone =>
    -- every resource is snapshotted, and the run begins
    rw [hdone, List.append_nil] at hsplit
    have hcovers : Covers s.drive.owned d.compiled.events := by
      intro event he
      rcases hall event he with hsome | hmem
      · exact hsome
      · rw [← hsplit] at hmem
        exact htaken event hmem
    have hgoes : DriveState.Goes { s.drive with
        phase := .waiting [], status := .running, failure := none, applied := 0, events := [], cleanup := []
        own := fun r => (s.drive.target.cells r).map (·.plan) } (DriveState.start d s.drive.target s.drive.owned) :=
      DriveState.next_goes (d := d) hcovers
    refine Held.sound ⟨?_, ?_, ?_, ?_⟩ rfl hpending ?_
    · simp only [hgoes.owned]
      exact h.keyed
    · simp only [hgoes.owned]
      intro o ho
      exact (h.owned o ho).congr (by simp only [hgoes.target]) rfl rfl
    · simp only [hgoes.owned]
      exact h.adopts
    · simp only [hgoes.target]
      exact h.fresh
    · simp only [hgoes.owned]
      exact hgoes.phased
  · next event rest hleft =>
    rw [hleft] at hsplit
    have hhead : s.drive.owned.get event.action.resource.key = none := by
      have hnot := List.head_dropWhile_not
        (fun event : CompiledEventV2 => (s.drive.owned.get event.action.resource.key).isSome)
        (show events.dropWhile _ ≠ [] by simp [hleft])
      simpa [hleft] using hnot
    refine ⟨⟨h.keyed, fun o ho => (h.owned o ho).congr rfl rfl rfl, h.adopts, h.fresh⟩, ?_, ?_, ?_,
      fun _ => hpending, ?_⟩
    · rintro _ ⟨⟩ event' he
      rcases hall event' he with hsome | hmem
      · exact .inl hsome
      · rw [← hsplit] at hmem
        rcases List.mem_append.1 hmem with htake | hmem
        · exact .inl (htaken event' htake)
        · exact .inr hmem
    · rintro _ ⟨⟩
      exact ⟨event, rest, rfl, hhead⟩
    · intro hnone
      cases hnone
    · intro created request hc
      simp only [hpending] at hc
      cases hc

/-- A snapshot adopts the policy it finds, and nobody else has touched it yet. -/
theorem onPrepare_sound {s : ServerRun} (h : Sound d s) {events : List CompiledEventV2}
    (hprep : s.preparing = some events) (hpending : s.pending = none) : Sound d (s.onPrepare d events) := by
  obtain ⟨event, rest, rfl, hnone⟩ := h.heads events hprep
  simp only [onPrepare]
  split
  · refine Held.sound ⟨h.keyed, fun o ho => (h.owned o ho).congr rfl rfl rfl, h.adopts, h.fresh⟩ rfl hpending trivial
  · next cell hcell =>
    have huntouched : s.adopted event.action.resource = none := by
      by_contra hsome
      have hget := h.adopts _ (Option.isSome_iff_ne_none.2 hsome)
      rw [hnone] at hget
      cases hget
    have hfresh := h.fresh _ huntouched cell hcell
    have hperm := @Owned.insert_perm s.drive.owned event.action.resource.key
      ⟨event.action.resource, cell.generation, cell.plan⟩
    apply settlePreparation_sound
    rotate_left
    · exact hpending
    · intro event' he
      simp only
      rw [Owned.insert_isSome]
      rcases h.prepares _ hprep event' he with hsome | hmem
      · exact .inl (.inr hsome)
      · rcases List.mem_cons.1 hmem with rfl | hmem
        · exact .inl (.inl rfl)
        · exact .inr hmem
    refine ⟨h.keyed.insert hnone _ _, ?_, ?_, ?_⟩
    · intro o ho
      rcases List.mem_cons.1 ((hperm.map _).subset ho) with rfl | ho
      · refine ⟨⟨s.object event.action.resource, by simp, Nat.le_refl _⟩, ?_, ?_⟩
        · intro _ cell' hcell'
          simp only [hcell, Option.some.injEq] at hcell'
          subst hcell'
          exact ⟨Nat.le_refl _, fun _ => hfresh⟩
        · intro hother
          exact absurd (by simp) hother
      · have hres : o.resource ≠ event.action.resource := by
          obtain ⟨⟨k, o'⟩, hko, rfl⟩ := List.mem_map.1 ho
          intro hres
          have hk := h.keyed.keys k o' hko
          simp only at hres
          rw [hres] at hk
          exact Owned.get_none hnone (hk ▸ hko)
        exact (h.owned o ho).congr rfl rfl (by simp [hres])
    · intro r hr
      simp only at hr ⊢
      rw [Owned.insert_isSome]
      split at hr
      · next heq => exact .inl (by rw [heq])
      · exact .inr (h.adopts r hr)
    · intro r hr
      simp only at hr
      split at hr
      · cases hr
      · exact h.fresh r hr

theorem settlePreparation_target (s : ServerRun) (events : List CompiledEventV2) :
    (s.settlePreparation d events).drive.target = s.drive.target := by
  unfold settlePreparation
  split
  · simp [DriveState.start]
  · rfl

theorem onPrepare_target (s : ServerRun) (events : List CompiledEventV2) :
    (s.onPrepare d events).drive.target = s.drive.target := by
  cases events with
  | nil => exact s.settlePreparation_target []
  | cons event rest =>
    simp only [onPrepare]
    split
    · rfl
    · exact settlePreparation_target _ rest

/-! ## The run -/

/-- Publishing over the prepared policy. -/
theorem Sound.published {s : ServerRun} (h : Sound d s) {request : PublishRequest} {next : Cell}
    (hpublished : publishSection s.drive.target request.resource request.expected request.plan request.seedNamespace =
      .published next) (hadopted : s.adopted request.resource = some (s.object request.resource)) :
    Sound d { s with drive := { s.drive with target := s.drive.target.put request.resource (some next) } } ∧
      Guarded { s with drive := { s.drive with target := s.drive.target.put request.resource (some next) } }
        request.resource next.generation := by
  obtain ⟨cell, hcell, hgen, hnext, horigin⟩ := publishSection_published hpublished
  have hcells : (s.drive.target.put request.resource (some next)).cells request.resource = some next := by
    simp [Target.put]
  constructor
  · refine h.retarget rfl rfl rfl rfl ?_ ?_
    · intro r n hg
      exact hg.put hcell (by omega) (fun _ _ => hadopted) rfl rfl rfl
    · intro r hnone cell' hcell'
      simp only [Target.put] at hcell'
      split at hcell'
      · cases hcell'
        exact .inr (by simp [horigin])
      · exact .inl hcell'
  · refine ⟨⟨_, hadopted, Nat.le_refl _⟩, ?_, ?_⟩
    · intro _ cell' hcell'
      simp only [hcells, Option.some.injEq] at hcell'
      subst hcell'
      exact ⟨Nat.le_refl _, fun _ => by simp [horigin]⟩
    · intro hother
      exact absurd hadopted hother

theorem onCall_sound (hstrict : DriveState.strict d = true) {s : ServerRun} (h : Sound d s)
    (hok : ¬ s.Slips d .call) : Sound d (s.onCall d) := by
  unfold onCall
  cases hprep : s.preparing with
  | some events => exact onPrepare_sound h hprep (h.idle (.inl (by simp [hprep])))
  | none =>
    cases hr : s.drive.request d with
    | none =>
      have hgoes := DriveState.onCall_goes hstrict (h.phased hprep) hr
        (s.drive.reads.bind fun r => if (s.drive.target.cells r).isNone then some r.missing else none) 0
      exact h.goes hgoes rfl (h.idle (.inr hr)) rfl rfl
    | some request =>
      simp only [Slips, hprep, hr] at hok
      cases hpending : s.pending with
      | none =>
        rw [hpending] at hok
        simp only [onSection]
        cases hsection : publishSection s.drive.target request.resource request.expected request.plan
            request.seedNamespace with
        | failed e =>
          exact h.answer hprep hr (fun _ he => by cases he) rfl hprep hpending rfl rfl
        | conflict =>
          refine ⟨⟨h.keyed, fun o ho => (h.owned o ho).congr rfl rfl rfl, h.adopts, h.fresh⟩, h.prepares, h.heads,
            h.phased, ?_, ?_⟩
          · rintro (hsome | hnone)
            · simp [hprep] at hsome
            · simp [hr] at hnone
          · rintro created request' ⟨⟩
        | published next =>
          have hadopted : s.adopted request.resource = some (s.object request.resource) := by
            by_contra hnot
            exact hok ⟨by simp [hsection, Section.isPublished], hnot⟩
          obtain ⟨hsound, hguarded⟩ := h.published hsection hadopted
          have hr' : ({ s.drive with target := s.drive.target.put request.resource (some next) } : DriveState).request d =
              some request := hr
          simp only
          cases request.resource.transport with
          | stream =>
            refine hsound.answer hprep hr' ?_ rfl hprep hpending rfl rfl
            rintro _ ⟨⟩
            exact hguarded
          | datagram =>
            refine ⟨⟨hsound.keyed, fun o ho => (hsound.owned o ho).congr rfl rfl rfl, hsound.adopts, hsound.fresh⟩,
              hsound.prepares, hsound.heads, hsound.phased, ?_, ?_⟩
            · rintro (hsome | hnone)
              · simp [hprep] at hsome
              · simp only [hr', reduceCtorEq] at hnone
            · rintro created request' ⟨⟩ hreq
              simp only [hr', Option.some.injEq] at hreq
              subst hreq
              exact hguarded.congr rfl rfl rfl
      | some pending =>
        rw [hpending] at hok
        refine h.answer hprep hr ?_ rfl rfl rfl rfl rfl
        intro receipt hreceipt
        cases pending with
        | conflict => cases hreceipt
        | receipt created =>
          simp only [secondAnswer] at hreceipt
          split at hreceipt
          · cases hreceipt
          · next cell hcell =>
            cases hreceipt
            -- what is read back is what was published
            have hgen : cell.generation = created := by simpa [hcell] using hok
            simp only [hgen]
            exact h.created created request hpending hr

theorem onAnswer_target (s : DriveState) (answer : Except TargetError Receipt) :
    (s.onAnswer d answer).target = s.target := by
  unfold DriveState.onAnswer
  split
  · simp
  · simp only
    split <;> simp
  · simp
  · simp
  · rfl

/-- A section that hands out no receipt and leaves the target alone. -/
theorem Faithful.quiet {s : ServerRun} (hreceipt : s.receipt d .call = none)
    (htarget : (s.onCall d).drive.target = s.drive.target) : Faithful d s .call := by
  constructor
  · intro receipt hr
    rw [hreceipt] at hr
    cases hr
  · intro _ r cell hcell _
    simp only [step, htarget]
    exact hcell

/-- A section of a sound run keeps its promises exactly if it does not slip. -/
theorem call_faithful_iff (hstrict : DriveState.strict d = true) {s : ServerRun} (h : Sound d s) :
    Faithful d s .call ↔ ¬ s.Slips d .call := by
  cases hprep : s.preparing with
  | some events =>
    have hquiet : Faithful d s .call := .quiet (by simp [receipt, hprep]) (by simp [onCall, hprep, onPrepare_target])
    simp [hquiet, Slips, hprep]
  | none =>
    cases hr : s.drive.request d with
    | none =>
      have hgoes := DriveState.onCall_goes hstrict (h.phased hprep) hr
        (s.drive.reads.bind fun r => if (s.drive.target.cells r).isNone then some r.missing else none) 0
      have hquiet : Faithful d s .call := .quiet (by simp [receipt, hprep, hr]) (by simpa [onCall, hprep, hr] using hgoes.target)
      simp [hquiet, Slips, hprep, hr]
    | some request =>
      cases hpending : s.pending with
      | some pending =>
        have htarget : (s.onCall d).drive.target = s.drive.target := by
          simp [onCall, hprep, hr, hpending, onAnswer_target]
        cases pending with
        | conflict =>
          have hquiet : Faithful d s .call :=
            .quiet (by simp [receipt, hprep, hr, hpending, secondAnswer, Except.toOption]) htarget
          simp [hquiet, Slips, hprep, hr, hpending]
        | receipt created =>
          cases hcell : s.drive.target.cells request.resource with
          | none =>
            have hquiet : Faithful d s .call :=
              .quiet (by simp [receipt, hprep, hr, hpending, secondAnswer, hcell, Except.toOption]) htarget
            simp [hquiet, Slips, hprep, hr, hpending, hcell]
          | some cell =>
            have hreceipt : s.receipt d .call = some ⟨cell.generation, created⟩ := by
              simp [receipt, hprep, hr, hpending, secondAnswer, hcell, Except.toOption]
            have hslips : s.Slips d .call ↔ cell.generation ≠ created := by
              simp [Slips, hprep, hr, hpending, hcell]
            rw [hslips, not_not]
            constructor
            · intro hf
              exact hf.receipt _ hreceipt
            · intro hgen
              refine ⟨?_, fun _ r cell' hcell' _ => by simpa only [step, htarget] using hcell'⟩
              intro receipt hr'
              rw [hreceipt] at hr'
              cases hr'
              exact hgen
      | none =>
        cases hsection : publishSection s.drive.target request.resource request.expected request.plan
            request.seedNamespace with
        | failed e =>
          have hquiet : Faithful d s .call := .quiet (by simp [receipt, hprep, hr, hpending, hsection])
            (by simp [onCall, hprep, hr, hpending, onSection, hsection, onAnswer_target])
          simp [hquiet, Slips, hprep, hr, hpending, hsection, Section.isPublished]
        | conflict =>
          have hquiet : Faithful d s .call := .quiet (by simp [receipt, hprep, hr, hpending, hsection])
            (by simp [onCall, hprep, hr, hpending, onSection, hsection])
          simp [hquiet, Slips, hprep, hr, hpending, hsection, Section.isPublished]
        | published next =>
          obtain ⟨cell, hcell, hgen, hnext, -⟩ := publishSection_published hsection
          have hguarded := h.requested hprep hr
          have htarget : (s.onCall d).drive.target = s.drive.target.put request.resource (some next) := by
            simp only [onCall, hprep, hr, hpending, onSection, hsection]
            split
            · simp [onAnswer_target]
            · rfl
          have hslips : s.Slips d .call ↔ s.adopted request.resource ≠ some (s.object request.resource) := by
            simp [Slips, hprep, hr, hpending, hsection, Section.isPublished]
          rw [hslips, not_not]
          constructor
          · intro hf
            by_contra hother
            -- the policy is another one, so its plan is somebody else's
            have hkept := hf.spares rfl request.resource cell hcell (hguarded.other hother cell hcell)
            simp only [step, htarget, Target.put, if_true, Option.some.injEq] at hkept
            rw [hkept] at hnext
            omega
          · intro hadopted
            refine ⟨?_, ?_⟩
            · intro receipt hreceipt
              simp only [ServerRun.receipt, hprep, hr, hpending, hsection] at hreceipt
              split at hreceipt
              · next hpub _ =>
                cases hreceipt
                rfl
              · cases hreceipt
            · intro _ r cell' hcell' hexternal
              simp only [step, htarget, Target.put]
              by_cases hres : r = request.resource
              · subst hres
                rw [hcell, Option.some.injEq] at hcell'
                subst hcell'
                exact absurd hexternal ((hguarded.same hadopted cell hcell).2 hgen)
              · simp only [hres, if_false]
                exact hcell'

theorem step_sound (hstrict : DriveState.strict d = true) {s : ServerRun} (h : Sound d s) (op : Op)
    (hok : ¬ s.Slips d op) : Sound d (s.step d op) := by
  have hexternal : ∀ op, Sound d (s.external op) := by
    intro op
    obtain ⟨target, hdrive, hpreparing, hpending, hadopted, hguarded, hfresh⟩ := s.external_keeps op
    exact h.retarget hdrive hpreparing hpending hadopted hguarded hfresh
  cases op with
  | call => exact onCall_sound hstrict h hok
  | publish r plan seedNamespace => exact hexternal (.publish r plan seedNamespace)
  | delete proxy transport => exact hexternal (.delete proxy transport)
  | create proxy transport plans seedNamespace => exact hexternal (.create proxy transport plans seedNamespace)
  | due now =>
    simp only [step]
    cases hprep : s.preparing with
    | some events => exact h
    | none =>
      have hphased := h.phased hprep
      simp only [DriveState.step]
      split
      · next event rest hphase =>
        have hidle : s.pending = none := h.idle (.inr (by simp [DriveState.request, hphase]))
        rw [hphase] at hphased
        split
        · exact h.goes (DriveState.begin_goes hstrict hphased now) rfl hidle rfl rfl
        · exact h.goes ⟨rfl, rfl, by rw [hphase]; exact hphased⟩ rfl hidle rfl rfl
      · exact h.retarget rfl hprep.symm rfl rfl (fun _ _ hg => hg.congr rfl rfl rfl) fun _ _ _ hc => .inl hc
  | cancelled =>
    simp only [step]
    cases hprep : s.preparing with
    | some events => exact h
    | none =>
      simp only [DriveState.step]
      split
      · next hphase =>
        have hidle : s.pending = none := h.idle (.inr (by simp [DriveState.request, hphase]))
        exact h.goes (DriveState.enterCleanup_goes _ _) rfl hidle rfl rfl
      · exact h.retarget rfl hprep.symm rfl rfl (fun _ _ hg => hg.congr rfl rfl rfl) fun _ _ _ hc => .inl hc

theorem step_faithful_iff (hstrict : DriveState.strict d = true) {s : ServerRun} (h : Sound d s) (op : Op) :
    Faithful d s op ↔ ¬ s.Slips d op := by
  by_cases hcall : op = .call
  · subst hcall
    exact call_faithful_iff hstrict h
  · have hfaithful : Faithful d s op := by
      refine ⟨?_, fun heq => absurd heq hcall⟩
      intro receipt hr
      cases op with
      | call => exact absurd rfl hcall
      | _ => cases hr
    have hok : ¬ s.Slips d op := by
      cases op with
      | call => exact absurd rfl hcall
      | _ => exact id
    simp [hfaithful, hok]

theorem start_sound (policies : ScheduleResource → Option (Nat × TargetPlan × UInt64)) (globalGeneration : Nat) :
    Sound d (start d policies globalGeneration) := by
  refine settlePreparation_sound ⟨⟨by simp, by simp⟩, by simp, by simp, ?_⟩ rfl fun event he => .inr he
  intro r _ cell hcell
  have hinitial := (DriveState.before_cell hcell).1
  simp [hinitial]

/-- In every strict run over the server's state, beside whatever others do,
receipts carry the generation of their publication and no plan of somebody else
is replaced, exactly if no step slips. -/
theorem server_run_faithful_iff (hstrict : d.compiled.isolation = .strict)
    (policies : ScheduleResource → Option (Nat × TargetPlan × UInt64)) (globalGeneration : Nat) (ops : List Op) :
    Along (fun s op => s.step d op) (Faithful d) (start d policies globalGeneration) ops ↔
      Along (fun s op => s.step d op) (fun s op => ¬ s.Slips d op) (start d policies globalGeneration) ops := by
  have hd : DriveState.strict d = true := by simp [DriveState.strict, hstrict]
  exact along_congr (Sound d) (fun _ op h hok => step_sound hd h op hok) (fun _ op h => step_faithful_iff hd h op)
    (start_sound policies globalGeneration) ops

/-- Somebody else publishes before the cleanup, which leaves that plan alone. -/
theorem server_run_faithful_conflict :
    let s := start removalDrive apiPolicies 1
    let ops : List Op := [.call, .due 0, .call, .call, .call, .publish apiUpstream slowPlan 9, .call]
    ((run (fun s op => s.step removalDrive op) s ops).drive.target.cells apiUpstream =
        some ⟨3, slowPlan, 9, .external⟩) ∧
      Along (fun s op => s.step removalDrive op) (Faithful removalDrive) s ops := by
  intro s ops
  refine ⟨by decide, (server_run_faithful_iff rfl apiPolicies 1 ops).2 ?_⟩
  exact ⟨show ¬ Slips _ _ _ by decide, show ¬ Slips _ _ _ by decide, show ¬ Slips _ _ _ by decide,
    show ¬ Slips _ _ _ by decide, show ¬ Slips _ _ _ by decide, show ¬ Slips _ _ _ by decide,
    show ¬ Slips _ _ _ by decide, trivial⟩

/-- The proxy is deleted and created again after the preparation: its generation
is the expected one, and the event replaces its plan. -/
theorem recreated_plan_replaced :
    ¬ ∀ (d : Drive) (policies : ScheduleResource → Option (Nat × TargetPlan × UInt64)) (globalGeneration : Nat)
      (ops : List Op), d.compiled.isolation = .strict →
      Along (fun s op => s.step d op) (Faithful d) (start d policies globalGeneration) ops := by
  intro hall
  obtain ⟨-, -, -, -, -, hfaithful, -⟩ := hall removalDrive apiPolicies 1
    [.call, .delete "api" .stream, .create "api" .stream (fun _ => slowPlan) 5, .due 0, .call, .call] rfl
  have hkept := hfaithful.spares rfl apiUpstream ⟨1, slowPlan, 5, .external⟩ (by decide) rfl
  exact absurd hkept (by decide)

end ServerRun

end Eggchaos
