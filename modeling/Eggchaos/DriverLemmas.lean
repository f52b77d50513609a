import Eggchaos.Driver
import Mathlib.Data.List.Nodup
/-!
# Lemmas about the driver

The owned map has one entry for each resource, under its key, and preparation
gives every resource of the schedule one. A step of the run changes the target
only by a publication for an event or for the cleanup, over a cell of the
generation that it expects.
-/

namespace Eggchaos
open Lib

/-! ## Keys and the owned map -/

theorem key_toList (r : ScheduleResource) :
    r.key.toList = r.proxy.toList ++ ("|" ++ r.direction.debug ++ "|" ++ r.transport.debug).toList := by
  simp [ScheduleResource.key, List.append_assoc]

theorem key_injective {r r' : ScheduleResource} (h : r.key = r'.key) : r = r' := by
  have hl := congrArg (fun s : String => s.toList.reverse) h
  simp only [key_toList, List.reverse_append] at hl
  obtain ⟨proxy, direction, transport⟩ := r
  obtain ⟨proxy', direction', transport'⟩ := r'
  cases direction <;> cases direction' <;> cases transport <;> cases transport' <;>
    simp [Direction.debug, ScheduleTransport.debug] at hl
  all_goals rw [String.toList_injective hl]

/-- The entry of `r` with a new owned generation, any other as it is. -/
def OwnedResource.advance (r : ScheduleResource) (generation : Nat) (o : OwnedResource) : OwnedResource :=
  if o.resource = r then { o with lastOwnedGeneration := generation } else o

theorem OwnedResource.advance_resource (r : ScheduleResource) (generation : Nat) (o : OwnedResource) :
    (advance r generation o).resource = o.resource := by
  unfold advance
  split <;> rfl

namespace Owned

/-- The entries are stored under the keys of their resources, each once. -/
structure Keyed (owned : Owned) : Prop where
  keys : ∀ k o, (k, o) ∈ owned → k = o.resource.key
  nodup : (owned.map (·.2.resource)).Nodup

variable {owned : Owned}

theorem get_mem {key : String} {o : OwnedResource} (h : owned.get key = some o) : (key, o) ∈ owned := by
  obtain ⟨⟨k, o'⟩, hfind, rfl⟩ := Option.map_eq_some_iff.1 h
  have hk : k = key := by simpa using List.find?_some hfind
  subst hk
  exact List.mem_of_find?_eq_some hfind

/-- What the map returns for a resource is the entry of that resource. -/
theorem Keyed.get_resource (h : Keyed owned) {r : ScheduleResource} {o : OwnedResource}
    (hget : owned.get r.key = some o) : o.resource = r ∧ o ∈ owned.map (·.2) := by
  have hmem := get_mem hget
  exact ⟨key_injective (h.keys _ _ hmem).symm, List.mem_map.2 ⟨_, hmem, rfl⟩⟩

theorem get_none {key : String} (h : owned.get key = none) {o : OwnedResource} : (key, o) ∉ owned := by
  intro hmem
  simp only [get, Option.map_eq_none_iff, List.find?_eq_none] at h
  exact h _ hmem (by simp)

theorem insert_perm (key : String) (o : OwnedResource) : (owned.insert key o).Perm ((key, o) :: owned) := by
  induction owned with
  | nil => exact .refl _
  | cons p rest ih =>
    obtain ⟨k, o'⟩ := p
    simp only [insert]
    split
    · exact (ih.cons _).trans (.swap _ _ _)
    · exact .refl _

theorem insert_isSome (key : String) (o : OwnedResource) (key' : String) :
    ((owned.insert key o).get key').isSome ↔ key' = key ∨ (owned.get key').isSome := by
  have hperm := @insert_perm owned key o
  simp only [get, Option.isSome_map, List.find?_isSome, hperm.mem_iff]
  simp [eq_comm]

theorem Keyed.insert (h : Keyed owned) {r : ScheduleResource} (hfree : owned.get r.key = none) (generation : Nat)
    (plan : TargetPlan) : Keyed (owned.insert r.key ⟨r, generation, plan⟩) := by
  have hp := @insert_perm owned r.key ⟨r, generation, plan⟩
  constructor
  · intro k o hmem
    rcases List.mem_cons.1 (hp.subset hmem) with heq | hmem
    · cases heq
      rfl
    · exact h.keys k o hmem
  · rw [(hp.map _).nodup_iff]
    refine List.nodup_cons.2 ⟨?_, h.nodup⟩
    intro hmem
    obtain ⟨⟨k, o⟩, hko, hr⟩ := List.mem_map.1 hmem
    have hk := h.keys k o hko
    simp only at hr
    rw [hr] at hk
    exact get_none hfree (hk ▸ hko)

theorem moved_fst (key : String) (generation : Nat) (p : String × OwnedResource) : (moved key generation p).1 = p.1 := by
  unfold moved
  split <;> rfl

theorem moved_resource (key : String) (generation : Nat) (p : String × OwnedResource) :
    (moved key generation p).2.resource = p.2.resource := by
  unfold moved
  split <;> rfl

/-- Updating the entry of `r` changes the owned generation of `r` alone. -/
theorem Keyed.update (h : Keyed owned) {r : ScheduleResource} {o : OwnedResource} (hget : owned.get r.key = some o)
    (generation : Nat) :
    Keyed (owned.update r.key r generation) ∧
      (owned.update r.key r generation).map (·.2) = (owned.map (·.2)).map (OwnedResource.advance r generation) ∧
      (owned.update r.key r generation).map (·.1) = owned.map (·.1) := by
  have hupdate : Owned.update owned r.key r generation = owned.map (moved r.key generation) := by
    simp [Owned.update, hget]
  have hsame : ∀ p ∈ owned, (p.1 = r.key ↔ p.2.resource = r) := by
    rintro ⟨k, o'⟩ hp
    have hk := h.keys k o' hp
    constructor
    · intro heq
      exact key_injective (hk.symm.trans heq)
    · rintro rfl
      exact hk
  rw [hupdate]
  refine ⟨⟨?_, ?_⟩, ?_, ?_⟩
  · intro k o' hmem
    obtain ⟨p, hp, heq⟩ := List.mem_map.1 hmem
    have hfst := moved_fst r.key generation p
    have hres := moved_resource r.key generation p
    rw [heq] at hfst hres
    rw [show k = p.1 from hfst, show o'.resource = p.2.resource from hres]
    exact h.keys p.1 p.2 hp
  · rw [List.map_map]
    have hres : (fun p : String × OwnedResource => p.2.resource) ∘ moved r.key generation = fun p => p.2.resource := by
      funext p
      exact moved_resource r.key generation p
    rw [hres]
    exact h.nodup
  · rw [List.map_map, List.map_map]
    refine List.map_congr_left ?_
    intro p hp
    simp only [Function.comp_apply, moved, OwnedResource.advance]
    by_cases hk : p.1 = r.key
    · rw [if_pos hk, if_pos ((hsame p hp).1 hk)]
    · rw [if_neg hk, if_neg (mt (hsame p hp).2 hk)]
  · rw [List.map_map]
    refine List.map_congr_left ?_
    intro p _
    exact moved_fst r.key generation p

/-- An updated map has entries under the same keys. -/
theorem get_isSome {owned' : Owned} (h : owned'.map (·.1) = owned.map (·.1)) (key : String) :
    (owned'.get key).isSome = (owned.get key).isSome := by
  have hget : ∀ o : Owned, (o.get key).isSome = (o.map (·.1)).any (· = key) := by
    intro o
    rw [Bool.eq_iff_iff, get, Option.isSome_map, List.find?_isSome]
    simp
  rw [hget, hget, h]

end Owned

/-- `publish` fails and changes nothing, or installs the plan over a cell of the
expected generation. -/
theorem Target.publish_cases (t : Target) (refused : Option TargetError) (r : ScheduleResource) (expected : Nat)
    (plan : TargetPlan) (seedNamespace : UInt64) (grown : Nat) :
    (∃ e, t.publish refused r expected plan seedNamespace grown = (.error e, t) ∧
        (refused = none → ∀ cell, t.cells r = some cell → cell.generation ≠ expected)) ∨
      ∃ cell, t.cells r = some cell ∧ cell.generation = expected ∧ refused = none ∧
        t.publish refused r expected plan seedNamespace grown =
          (.ok (t.top r + 1 + grown), t.install r plan seedNamespace grown .run) := by
  unfold Target.publish Target.read
  cases refused with
  | some e => exact .inl ⟨e, rfl, by simp⟩
  | none =>
    cases hc : t.cells r with
    | none => exact .inl ⟨_, rfl, by simp⟩
    | some cell =>
      by_cases hg : cell.generation = expected
      · exact .inr ⟨cell, rfl, hg, rfl, by simp [hg]⟩
      · refine .inl ⟨_, by simp only [ne_eq, hg, not_false_eq_true, if_true]; rfl, ?_⟩
        rintro - _ ⟨⟩
        exact hg

namespace DriveState

variable {d : Drive} {s : DriveState}

/-! ## What the run's own steps do to the target -/

@[simp] theorem restoreNext_target (s : DriveState) (left : List OwnedResource) : (s.restoreNext left).target = s.target := by
  cases left <;> rfl

@[simp] theorem enterCleanup_target (s : DriveState) (status : ScheduleRunStatus) :
    (s.enterCleanup d status).target = s.target := by
  unfold enterCleanup
  cases d.compiled.cleanup with
  | leave => rfl
  | restoreInitial => exact restoreNext_target _ _

@[simp] theorem fail_target (s : DriveState) (reason : String) : (s.fail d reason).target = s.target :=
  enterCleanup_target _ _

@[simp] theorem next_target (s : DriveState) (events : List CompiledEventV2) : (s.next d events).target = s.target := by
  cases events with
  | nil => exact enterCleanup_target _ _
  | cons event rest => rfl

@[simp] theorem record_target (s : DriveState) (a : Applying) (upstream downstream : Nat) :
    (s.record d a upstream downstream).target = s.target := next_target _ _

@[simp] theorem noteCleanup_target (s : DriveState) (r : ScheduleResource) (outcome : CleanupResourceOutcome)
    (todo : List OwnedResource) : (s.noteCleanup r outcome todo).target = s.target := restoreNext_target _ _

@[simp] theorem expect_target (s : DriveState) (a : Applying) (plan : TargetPlan) :
    (s.expect d a plan).target = s.target := by
  unfold expect
  split <;> rfl

@[simp] theorem begin_target (s : DriveState) (now : Nat) (event : CompiledEventV2) (rest : List CompiledEventV2) :
    (s.begin d now event rest).target = s.target := by
  unfold begin
  split
  · split <;> simp
  · split <;> simp
  · rfl
  · rfl

/-- A publication of an event over this cell. -/
structure Publishes (d : Drive) (s : DriveState) (op : Op) (r : ScheduleResource) (cell : Cell) (a : Applying)
    (plan : TargetPlan) (expected : Nat) : Prop where
  phase : s.phase = .publishing a plan expected
  resource : r = a.event.action.resource
  found : s.target.cells r = some cell
  generation : cell.generation = expected
  target : ∃ grown, op = .call none grown ∧
    (s.step d op).target = s.target.install r plan (eventNamespace d a.event.compiledIndex) grown .run

/-- A publication of the cleanup over this cell. -/
structure Republishes (d : Drive) (s : DriveState) (op : Op) (r : ScheduleResource) (cell : Cell) (entry : OwnedResource)
    (current : Nat) (todo : List OwnedResource) : Prop where
  phase : s.phase = .republishing entry current todo
  resource : r = entry.resource
  found : s.target.cells r = some cell
  generation : cell.generation = current
  target : ∃ grown, op = .call none grown ∧
    (s.step d op).target = s.target.install r entry.initialPlan (cleanupNamespace d) grown .run

/-- A step of the run leaves the target alone, or publishes for an event or for
the cleanup over a cell of the generation it expects. -/
theorem run_step_target (s : DriveState) {op : Op} (hrun : op.isRun = true) :
    (s.step d op).target = s.target ∨
      (∃ r cell a plan expected, Publishes d s op r cell a plan expected) ∨
      ∃ r cell entry current todo, Republishes d s op r cell entry current todo := by
  cases op with
  | external r plan seedNamespace grown => cases hrun
  | remove r => cases hrun
  | reconfigured globalGeneration => cases hrun
  | due now =>
    left
    simp only [step]
    split
    · split
      · simp
      · rfl
    · rfl
  | cancelled =>
    left
    simp only [step]
    split
    · simp
    · rfl
  | call refused grown =>
    simp only [step, onCall]
    cases hphase : s.phase with
    | waiting events => exact .inl rfl
    | finished => exact .inl rfl
    | snapshotting a =>
      left
      simp only [onSnapshot]
      split
      · simp
      · split
        · simp
        · split
          · simp
          · rfl
    | readingGeneration a plan =>
      left
      simp only [onGeneration]
      split
      · simp
      · rfl
    | readingSibling a generation =>
      left
      simp only [onSibling]
      split
      · simp
      · split <;> simp
    | restoring entry todo =>
      left
      simp only [onRestore]
      split
      · simp
      · split
        · simp
        · rfl
    | publishing a plan expected =>
      simp only [onPublish]
      rcases s.target.publish_cases refused a.event.action.resource expected plan
        (eventNamespace d a.event.compiledIndex) grown with ⟨e, he, -⟩ | ⟨cell, hcell, hgen, rfl, hpub⟩
      · exact .inl (by simp [he])
      · refine .inr (.inl ⟨_, cell, a, plan, expected, hphase, rfl, hcell, hgen, grown, rfl, ?_⟩)
        simp only [step, onCall, hphase, onPublish, hpub]
        split <;> simp
    | republishing entry current todo =>
      simp only [onRepublish]
      rcases s.target.publish_cases refused entry.resource current entry.initialPlan (cleanupNamespace d) grown with
        ⟨e, he, -⟩ | ⟨cell, hcell, hgen, rfl, hpub⟩
      · exact .inl (by simp [he])
      · refine .inr (.inr ⟨_, cell, entry, current, todo, hphase, rfl, hcell, hgen, grown, rfl, ?_⟩)
        simp [step, onCall, hphase, onRepublish, hpub]

/-! ## Preparation -/

/-- Before the run every cell is initial, at the highest generation so far. -/
theorem before_cell {policies : ScheduleResource → Option (Nat × TargetPlan × UInt64)} {global : Nat}
    {r : ScheduleResource} {cell : Cell} (h : (Target.before policies global).cells r = some cell) :
    cell.origin = .initial ∧ cell.generation = (Target.before policies global).top r := by
  simp only [Target.before, Option.map_eq_some_iff] at h
  obtain ⟨p, hp, rfl⟩ := h
  exact ⟨rfl, by simp [Target.before, hp]⟩

/-- What preparation has collected so far. -/
structure Collected (t : Target) (owned : Owned) : Prop where
  keyed : owned.Keyed
  cells : ∀ o ∈ owned.map (·.2), ∃ cell, t.cells o.resource = some cell ∧ cell.generation = o.lastOwnedGeneration ∧
    cell.plan = o.initialPlan

theorem read_none_ok {t : Target} {r : ScheduleResource} {cell : Cell} (h : t.read none r = .ok cell) :
    t.cells r = some cell := by
  unfold Target.read at h
  split at h
  · cases h
  · cases h
  · next hc => cases h; exact hc

theorem prepareFrom_collected {capabilities : TargetCapabilities} {t : Target} {events : List CompiledEventV2}
    {owned owned' : Owned} (h : Collected t owned) (hp : prepareFrom capabilities t owned events = .ok owned') :
    Collected t owned' ∧ (∀ key, (owned.get key).isSome → (owned'.get key).isSome) ∧
      ∀ event ∈ events, (owned'.get event.action.resource.key).isSome := by
  induction events generalizing owned with
  | nil => cases hp; exact ⟨h, fun _ hk => hk, by simp⟩
  | cons event events ih =>
    simp only [prepareFrom] at hp
    split at hp
    · next hsome =>
      obtain ⟨hc, hkeep, hall⟩ := ih h hp
      refine ⟨hc, hkeep, ?_⟩
      intro e he
      rcases List.mem_cons.1 he with rfl | he
      · exact hkeep _ hsome
      · exact hall e he
    · next hnone =>
      rw [Bool.not_eq_true, Option.isSome_eq_false_iff, Option.isNone_iff_eq_none] at hnone
      split at hp
      · cases hp
      · split at hp
        · cases hp
        · next cell hread =>
          have hcell := read_none_ok hread
          have hperm := @Owned.insert_perm owned event.action.resource.key
            ⟨event.action.resource, cell.generation, cell.plan⟩
          have hcollected : Collected t (Owned.insert event.action.resource.key
              ⟨event.action.resource, cell.generation, cell.plan⟩ owned) := by
            refine ⟨h.keyed.insert hnone _ _, ?_⟩
            intro o ho
            rcases List.mem_cons.1 ((hperm.map _).subset ho) with rfl | ho
            · exact ⟨cell, hcell, rfl, rfl⟩
            · exact h.cells o ho
          obtain ⟨hc, hkeep, hall⟩ := ih hcollected hp
          refine ⟨hc, fun key hk => hkeep key ((Owned.insert_isSome _ _ key).2 (.inr hk)), ?_⟩
          intro e he
          rcases List.mem_cons.1 he with rfl | he
          · exact hkeep _ ((Owned.insert_isSome _ _ _).2 (.inl rfl))
          · exact hall e he

/-! ## Runs -/

/-- The run after its preparation and these steps. -/
def after (d : Drive) (t : Target) (owned : Owned) (ops : List Op) : DriveState :=
  run (fun s op => s.step d op) (start d t owned) ops

/-- Only a removal makes a resource go away. -/
theorem step_present {r : ScheduleResource} (hs : s.target.cells r ≠ none) {op : Op} (hop : op ≠ .remove r) :
    (s.step d op).target.cells r ≠ none := by
  have hinstall : ∀ r' plan ns grown origin, (s.target.install r' plan ns grown origin).cells r ≠ none := by
    intro r' plan ns grown origin
    simp only [Target.install]
    split
    · simp
    · exact hs
  by_cases hrun : op.isRun = true
  · rcases run_step_target s hrun with hsame | ⟨r', cell, a, plan, expected, hp⟩ | ⟨r', cell, entry, current, todo, hp⟩
    · rw [hsame]
      exact hs
    · obtain ⟨grown, -, htarget⟩ := hp.target
      rw [htarget]
      exact hinstall _ _ _ _ _
    · obtain ⟨grown, -, htarget⟩ := hp.target
      rw [htarget]
      exact hinstall _ _ _ _ _
  · cases op with
    | due now => exact absurd rfl hrun
    | cancelled => exact absurd rfl hrun
    | call refused grown => exact absurd rfl hrun
    | external r' plan ns grown => exact hinstall _ _ _ _ _
    | remove r' =>
      have hr : r ≠ r' := by
        rintro rfl
        exact hop rfl
      simpa only [step, Target.remove, if_neg hr] using hs
    | reconfigured global => exact hs

theorem run_present {r : ScheduleResource} {ops : List Op} (hs : s.target.cells r ≠ none) (hops : Op.remove r ∉ ops) :
    (run (fun s op => s.step d op) s ops).target.cells r ≠ none := by
  induction ops generalizing s with
  | nil => exact hs
  | cons op ops ih =>
    refine ih (step_present hs ?_) fun hmem => hops (List.mem_cons_of_mem _ hmem)
    rintro rfl
    exact hops (by simp)

end DriveState

/-! A proxy with one fault upstream, and a strict schedule that takes it out and
restores it. -/

def apiUpstream : ScheduleResource := ⟨"api", .upstream, .stream⟩

def slowPlan : TargetPlan := .stream ⟨[⟨⟨"slow", by decide, by decide⟩, .one, .slowClose ⟨5⟩⟩]⟩

def apiPolicies (r : ScheduleResource) : Option (Nat × TargetPlan × UInt64) :=
  if r = apiUpstream then some (1, slowPlan, 7)
  else if r = ⟨"api", .downstream, .stream⟩ then some (1, .stream .empty, 7) else none

def removalDrive : Drive where
  compiled := {
    compilerSemanticsVersion
    seed := 1
    executionKey := 2
    isolation := .strict
    cleanup := .restoreInitial
    events := [⟨0, .top 0, 0, .removeFault "api" .upstream "slow"⟩]
    totalDurationNs := 0 }
  fingerprint := []
  compiledFingerprint := []
  epoch := 0

def apiOwned : Owned := [(apiUpstream.key, ⟨apiUpstream, 1, slowPlan⟩)]

end Eggchaos
