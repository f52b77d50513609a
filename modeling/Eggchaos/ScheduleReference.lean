import Eggchaos.ScheduleWire
/-!
# The compiler against its reference

What a schedule means without loops: `flattened` lists its phases with their
identities, `ScenarioScheduleV2.reference` places every action at the sum of the
durations before its phase and numbers them. `compileSchedule_iff` says that the
compiler accepts exactly the `Acceptable` schedules and makes that tape of them.
-/

namespace Eggchaos
open Lib

/-- A phase of the flattened schedule, with the source phase and iteration it
stands for. -/
abbrev FlatPhase := CompiledPhaseIdentity × SchedulePhaseV2

def labelled (identity : Nat → CompiledPhaseIdentity) (phases : List SchedulePhaseV2) : List FlatPhase :=
  phases.mapIdx fun k phase => (identity k, phase)

def totalDuration (flat : List FlatPhase) : Nat := (flat.map (·.2.durationNs)).sum

def totalActions (flat : List FlatPhase) : Nat := (flat.map (·.2.actions.length)).sum

/-- Every action with its phase's identity and the durations before that phase. -/
def placed (flat : List FlatPhase) : List (CompiledPhaseIdentity × Nat × ScenarioAction) :=
  flat.zipIdx.flatMap fun entry =>
    entry.1.2.actions.map fun action => (entry.1.1, totalDuration (flat.take entry.2), action)

namespace ScenarioScheduleV2

/-- The top-level phases and `count` copies of the repeat block. -/
def flattened (source : ScenarioScheduleV2) : List FlatPhase :=
  labelled .top source.phases ++ match source.repeatBlock with
    | some block => (List.range block.count).flatMap fun i => labelled (.repeated (1 + i)) block.phases
    | none => []

/-- The tape a schedule stands for. -/
def reference (source : ScenarioScheduleV2) : CompiledScenarioV2 where
  compilerSemanticsVersion
  seed := source.seed
  executionKey := source.executionKey
  isolation := source.isolation
  cleanup := source.cleanup
  events := (placed source.flattened).mapIdx fun i entry => ⟨i, entry.1, entry.2.1, entry.2.2⟩
  totalDurationNs := totalDuration source.flattened

/-- The schedules the compiler is to accept. -/
structure Acceptable (source : ScenarioScheduleV2) : Prop where
  structured : source.checkStructure = .ok ()
  few : totalActions source.flattened ≤ maxCompiledEvents
  valid : ∀ phase ∈ source.flattenedPhases, ∀ action ∈ phase.actions, action.validate = .ok ()
  fits : totalDuration source.flattened ≤ u64Max

/-- The repeat block written out as top-level phases. -/
def unrolled (source : ScenarioScheduleV2) : ScenarioScheduleV2 :=
  { source with phases := source.flattenedPhases, repeatBlock := none }

end ScenarioScheduleV2

/-! ## The running cursor -/

def FlatPhase.events (entry : FlatPhase) (cursor : Cursor) : List CompiledEventV2 :=
  entry.2.actions.mapIdx fun k action => ⟨cursor.index + k, entry.1, cursor.offsetNs, action⟩

/-- The cursor behind a stretch of flattened phases. -/
def Cursor.behind (cursor : Cursor) (flat : List FlatPhase) : Cursor :=
  ⟨cursor.offsetNs + totalDuration flat, cursor.index + totalActions flat⟩

/-- The tape as the loops write it, with the cursor they carry. -/
def tapeFrom : Cursor → List FlatPhase → List CompiledEventV2
  | _, [] => []
  | cursor, entry :: flat => entry.events cursor ++ tapeFrom (cursor.behind [entry]) flat

theorem totalDuration_append (flat flat' : List FlatPhase) :
    totalDuration (flat ++ flat') = totalDuration flat + totalDuration flat' := by
  simp only [totalDuration, List.map_append, List.sum_append]

theorem totalActions_append (flat flat' : List FlatPhase) :
    totalActions (flat ++ flat') = totalActions flat + totalActions flat' := by
  simp only [totalActions, List.map_append, List.sum_append]

theorem Cursor.behind_append (cursor : Cursor) (flat flat' : List FlatPhase) :
    cursor.behind (flat ++ flat') = (cursor.behind flat).behind flat' := by
  simp only [Cursor.behind, totalDuration_append, totalActions_append, Nat.add_assoc]

theorem Cursor.behind_nil (cursor : Cursor) : cursor.behind [] = cursor := rfl

theorem tapeFrom_append (cursor : Cursor) (flat flat' : List FlatPhase) :
    tapeFrom cursor (flat ++ flat') = tapeFrom cursor flat ++ tapeFrom (cursor.behind flat) flat' := by
  induction flat generalizing cursor with
  | nil => rfl
  | cons entry flat ih =>
    simp only [List.cons_append, tapeFrom, ih, List.append_assoc]
    rw [← List.singleton_append (l := flat), Cursor.behind_append]

theorem totalDuration_cons (entry : FlatPhase) (flat : List FlatPhase) :
    totalDuration (entry :: flat) = entry.2.durationNs + totalDuration flat := by
  simp only [totalDuration, List.map_cons, List.sum_cons]

theorem placed_cons (entry : FlatPhase) (flat : List FlatPhase) :
    placed (entry :: flat) = entry.2.actions.map (fun action => (entry.1, 0, action)) ++
      (placed flat).map fun p => (p.1, entry.2.durationNs + p.2.1, p.2.2) := by
  simp only [placed]
  rw [List.zipIdx_cons', List.flatMap_cons, List.flatMap_map, List.map_flatMap]
  refine congrArg₂ (· ++ ·) rfl (List.flatMap_congr fun later _ => ?_)
  simp only [Prod.map_fst, Prod.map_snd, id, List.take_succ_cons, totalDuration_cons, List.map_map]
  rfl

theorem mapIdx_map {α β γ : Type} (f : α → β) (g : Nat → β → γ) (l : List α) :
    (l.map f).mapIdx g = l.mapIdx fun i a => g i (f a) := by
  apply List.ext_getElem <;> simp

/-- The running cursor adds up what the reference sums. -/
theorem tapeFrom_eq (flat : List FlatPhase) (cursor : Cursor) :
    tapeFrom cursor flat =
      (placed flat).mapIdx fun i p => ⟨cursor.index + i, p.1, cursor.offsetNs + p.2.1, p.2.2⟩ := by
  induction flat generalizing cursor with
  | nil => rfl
  | cons entry flat ih =>
    rw [tapeFrom, ih, placed_cons, List.mapIdx_append, mapIdx_map, mapIdx_map]
    refine congrArg₂ (· ++ ·) rfl (congrArg (List.mapIdx · _) ?_)
    funext i p
    simp only [Cursor.behind, totalActions, totalDuration, List.length_map, List.map_cons, List.map_nil, List.sum_cons,
      List.sum_nil]
    congr 1 <;> omega

/-! ## The loops -/

theorem except_bind_ok_iff {ε α β : Type} {x : Except ε α} {f : α → Except ε β} {b : β} :
    x >>= f = .ok b ↔ ∃ a, x = .ok a ∧ f a = .ok b :=
  ⟨except_bind_ok, fun ⟨_, hx, hf⟩ => by rw [hx]; exact hf⟩

theorem bind_unit_ok_iff {ε β : Type} {x : Except ε Unit} {f : Unit → Except ε β} {b : β} :
    x >>= f = .ok b ↔ x = .ok () ∧ f () = .ok b := by
  rw [except_bind_ok_iff]
  exact ⟨fun ⟨(), h⟩ => h, fun h => ⟨(), h⟩⟩

theorem forM_ok_iff {ε α : Type} {f : α → Except ε Unit} {l : List α} :
    l.forM f = .ok () ↔ ∀ a ∈ l, f a = .ok () := by
  refine ⟨forM_ok, fun h => ?_⟩
  induction l with
  | nil => rfl
  | cons a l ih =>
    obtain ⟨ha, hl⟩ := List.forall_mem_cons.1 h
    exact except_bind_ok_iff.2 ⟨(), ha, ih hl⟩

theorem labelled_cons (identity : Nat → CompiledPhaseIdentity) (phase : SchedulePhaseV2) (phases : List SchedulePhaseV2) :
    labelled identity (phase :: phases) = (identity 0, phase) :: labelled (fun k => identity (k + 1)) phases := by
  simp only [labelled, List.mapIdx_cons]

theorem expandPhase_iff {identity : CompiledPhaseIdentity} {phase : SchedulePhaseV2} {cursor : Cursor}
    {tape : List CompiledEventV2 × Cursor} :
    expandPhase identity phase cursor = .ok tape ↔
      (cursor.behind [(identity, phase)]).offsetNs ≤ u64Max ∧
        tape = (FlatPhase.events (identity, phase) cursor, cursor.behind [(identity, phase)]) := by
  have hbehind : cursor.behind [(identity, phase)] =
      ⟨cursor.offsetNs + phase.durationNs, cursor.index + phase.actions.length⟩ := by
    simp [Cursor.behind, totalDuration, totalActions]
  simp only [expandPhase, hbehind]
  split
  · next hfits => simp only [hfits, true_and, Except.ok.injEq, eq_comm, FlatPhase.events]
  · next hfits => simp only [hfits, false_and, reduceCtorEq]

/-- The tape of flattened phases, if their durations fit. -/
theorem expandPhases_iff {identity : Nat → CompiledPhaseIdentity}
    {check : SchedulePhaseV2 → Except ScheduleError Unit} {k : Nat} {phases : List SchedulePhaseV2} {cursor : Cursor}
    (hcursor : cursor.offsetNs ≤ u64Max) {tape : List CompiledEventV2 × Cursor} :
    expandPhases identity check k phases cursor = .ok tape ↔
      (∀ phase ∈ phases, check phase = .ok ()) ∧
        (cursor.behind (labelled (fun j => identity (k + j)) phases)).offsetNs ≤ u64Max ∧
        tape = (tapeFrom cursor (labelled (fun j => identity (k + j)) phases),
          cursor.behind (labelled (fun j => identity (k + j)) phases)) := by
  induction phases generalizing k cursor tape with
  | nil =>
    simp only [expandPhases, labelled, List.mapIdx_nil, tapeFrom, Cursor.behind_nil, List.not_mem_nil, hcursor]
    simp [eq_comm]
  | cons phase phases ih =>
    have hshift : (fun j => identity (k + (j + 1))) = fun j => identity (k + 1 + j) := by
      funext j
      rw [Nat.add_assoc, Nat.add_comm 1 j]
    have hsplit : cursor.behind (labelled (fun j => identity (k + j)) (phase :: phases)) =
        (cursor.behind [(identity k, phase)]).behind (labelled (fun j => identity (k + 1 + j)) phases) := by
      rw [labelled_cons, hshift, ← Cursor.behind_append]
      rfl
    have htape : tapeFrom cursor (labelled (fun j => identity (k + j)) (phase :: phases)) =
        FlatPhase.events (identity k, phase) cursor ++
          tapeFrom (cursor.behind [(identity k, phase)]) (labelled (fun j => identity (k + 1 + j)) phases) := by
      rw [labelled_cons, hshift]
      rfl
    rw [hsplit, htape, List.forall_mem_cons]
    simp only [expandPhases, except_bind_ok_iff, expandPhase_iff]
    constructor
    · rintro ⟨⟨⟩, hcheck, ⟨_, _⟩, ⟨hfits, hpair⟩, ⟨rest, last⟩, hrest, hlast⟩
      cases hpair
      obtain ⟨hchecks, hall, hpair⟩ := (ih hfits).1 hrest
      cases hpair
      cases hlast
      exact ⟨⟨hcheck, hchecks⟩, hall, rfl⟩
    · rintro ⟨⟨hcheck, hchecks⟩, hall, rfl⟩
      have hfits : (cursor.behind [(identity k, phase)]).offsetNs ≤ u64Max :=
        Nat.le_trans (Nat.le_add_right _ _) hall
      exact ⟨(), hcheck, _, ⟨hfits, rfl⟩, _, (ih hfits).2 ⟨hchecks, hall, rfl⟩, rfl⟩

/-- The remaining iterations of a block, numbered from `iteration`. -/
def iterations (phases : List SchedulePhaseV2) (iteration remaining : Nat) : List FlatPhase :=
  (List.range remaining).flatMap fun i => labelled (.repeated (iteration + i)) phases

theorem iterations_succ (phases : List SchedulePhaseV2) (iteration remaining : Nat) :
    iterations phases iteration (remaining + 1) =
      labelled (.repeated iteration) phases ++ iterations phases (iteration + 1) remaining := by
  simp only [iterations, List.range_succ_eq_map, List.flatMap_cons, List.flatMap_map, Nat.add_zero]
  congr 2
  funext i
  rw [Nat.add_assoc, Nat.add_comm 1 i]

theorem expandRepeat_iff {phases : List SchedulePhaseV2} {remaining iteration : Nat} {cursor : Cursor}
    (hcursor : cursor.offsetNs ≤ u64Max) {tape : List CompiledEventV2 × Cursor} :
    expandRepeat phases remaining iteration cursor = .ok tape ↔
      (cursor.behind (iterations phases iteration remaining)).offsetNs ≤ u64Max ∧
        tape = (tapeFrom cursor (iterations phases iteration remaining),
          cursor.behind (iterations phases iteration remaining)) := by
  induction remaining generalizing iteration cursor tape with
  | zero =>
    simp only [expandRepeat, iterations, List.range_zero, List.flatMap_nil, tapeFrom, Cursor.behind_nil, hcursor]
    simp [eq_comm]
  | succ remaining ih =>
    have hblock : labelled (fun j => .repeated iteration (0 + j)) phases = labelled (.repeated iteration) phases := by
      simp only [Nat.zero_add]
    rw [iterations_succ, Cursor.behind_append, tapeFrom_append]
    simp only [expandRepeat, except_bind_ok_iff, expandPhases_iff hcursor, hblock]
    constructor
    · rintro ⟨⟨_, _⟩, ⟨-, hfits, hpair⟩, ⟨rest, last⟩, hrest, hlast⟩
      cases hpair
      obtain ⟨hall, hpair⟩ := (ih hfits).1 hrest
      cases hpair
      cases hlast
      exact ⟨hall, rfl⟩
    · rintro ⟨hall, rfl⟩
      have hfits : (cursor.behind (labelled (.repeated iteration) phases)).offsetNs ≤ u64Max :=
        Nat.le_trans (Nat.le_add_right _ _) hall
      exact ⟨_, ⟨fun _ _ => trivial, hfits, rfl⟩, _, (ih hfits).2 ⟨hall, rfl⟩, rfl⟩

/-! ## The checks of the structure -/

theorem except_error_bind {ε α β : Type} (e : ε) (f : α → Except ε β) : (Except.error e >>= f) = .error e := rfl

/-- A check passes, and what follows it. -/
theorem guard_ok_iff {ε α : Type} {c : Prop} [Decidable c] {e : ε} {x : Except ε α} {a : α} :
    (if c then .error e else x) = .ok a ↔ ¬c ∧ x = .ok a := by
  split <;> simp [*]

theorem throw_eq_error {ε α : Type} (e : ε) : (throw e : Except ε α) = .error e := rfl

theorem SchedulePhaseV2.check_ok {phase : SchedulePhaseV2} (h : phase.check = .ok ()) :
    phase.actions.length ≤ maxPhaseActions := by
  unfold check at h
  split at h
  · cases h
  · split at h
    · cases h
    · omega

theorem validatePhaseActions_iff {phase : SchedulePhaseV2} :
    validatePhaseActions phase = .ok () ↔
      phase.actions.length ≤ maxPhaseActions ∧ ∀ action ∈ phase.actions, action.validate = .ok () := by
  unfold validatePhaseActions
  simp only [throw_eq_error, except_error_bind, guard_ok_iff, forM_ok_iff, Nat.not_lt]

/-- The bounds on a repeat block, whose phases are there. -/
theorem ScheduleRepeatV2.check_ok {block : ScheduleRepeatV2} (h : block.check = .ok ()) :
    0 < block.count ∧ block.count ≤ maxRepeatCount ∧ block.phases.length ≤ maxPhases := by
  unfold check at h
  split at h
  · cases h
  · split at h
    · cases h
    · omega

namespace ScenarioScheduleV2

variable {source : ScenarioScheduleV2}

theorem checkStructure_none (h : source.repeatBlock = none) :
    source.checkStructure = .ok () ↔
      source.version = scheduleSchemaVersion ∧ source.phases.length ≤ maxPhases ∧
        (∀ phase ∈ source.phases, phase.check = .ok ()) ∧ source.phases ≠ [] := by
  unfold checkStructure
  simp only [h, throw_eq_error, except_error_bind, guard_ok_iff, bind_unit_ok_iff, forM_ok_iff]
  simp [pure, Except.pure]

theorem checkStructure_some {block : ScheduleRepeatV2} (h : source.repeatBlock = some block) :
    source.checkStructure = .ok () ↔
      source.version = scheduleSchemaVersion ∧ source.phases.length ≤ maxPhases ∧ block.check = .ok () ∧
        (∀ phase ∈ source.phases, phase.check = .ok ()) ∧ block.phases ≠ [] ∧
        ∀ phase ∈ block.phases, phase.check = .ok () := by
  unfold checkStructure
  simp only [h, throw_eq_error, except_error_bind, guard_ok_iff, bind_unit_ok_iff, forM_ok_iff]
  simp [pure, Except.pure]

theorem flattened_phases (source : ScenarioScheduleV2) : source.flattened.map Prod.snd = source.flattenedPhases := by
  have hlabelled (identity : Nat → CompiledPhaseIdentity) (phases : List SchedulePhaseV2) :
      (labelled identity phases).map Prod.snd = phases := by
    apply List.ext_getElem <;> simp [labelled]
  simp only [flattened, flattenedPhases, List.map_append, hlabelled]
  cases source.repeatBlock with
  | none => rfl
  | some block =>
    simp only [List.map_flatMap, hlabelled]
    rw [List.flatMap_def, List.map_const', List.length_range]

theorem totalActions_flattened (source : ScenarioScheduleV2) :
    totalActions source.flattened = (source.flattenedPhases.map (·.actions.length)).sum := by
  rw [← flattened_phases, List.map_map]
  rfl

theorem totalDuration_flattened (source : ScenarioScheduleV2) :
    totalDuration source.flattened = (source.flattenedPhases.map (·.durationNs)).sum := by
  rw [← flattened_phases, List.map_map]
  rfl

/-- Every phase of an accepted structure passes its own check. -/
theorem flattened_check (h : source.checkStructure = .ok ()) : ∀ phase ∈ source.flattenedPhases, phase.check = .ok () := by
  intro phase hphase
  cases hblock : source.repeatBlock with
  | none =>
    simp only [flattenedPhases, hblock, List.append_nil] at hphase
    exact ((checkStructure_none hblock).1 h).2.2.1 phase hphase
  | some block =>
    obtain ⟨-, -, -, htop, -, hrepeated⟩ := (checkStructure_some hblock).1 h
    simp only [flattenedPhases, hblock, List.mem_append, List.mem_flatten, List.mem_replicate] at hphase
    rcases hphase with hphase | ⟨phases, ⟨-, rfl⟩, hphase⟩
    · exact htop phase hphase
    · exact hrepeated phase hphase

end ScenarioScheduleV2

/-! ## The compiler -/

theorem events_length (entry : FlatPhase) (cursor : Cursor) : (entry.events cursor).length = entry.2.actions.length := by
  simp only [FlatPhase.events, List.length_mapIdx]

theorem tapeFrom_length (cursor : Cursor) (flat : List FlatPhase) : (tapeFrom cursor flat).length = totalActions flat := by
  induction flat generalizing cursor with
  | nil => rfl
  | cons entry flat ih =>
    rw [tapeFrom, List.length_append, ih, events_length]
    simp only [totalActions, List.map_cons, List.sum_cons]

/-- The reference is what the loops write from the start. -/
theorem reference_eq (source : ScenarioScheduleV2) : source.reference = {
    compilerSemanticsVersion
    seed := source.seed
    executionKey := source.executionKey
    isolation := source.isolation
    cleanup := source.cleanup
    events := tapeFrom ⟨0, 0⟩ source.flattened
    totalDurationNs := (Cursor.behind ⟨0, 0⟩ source.flattened).offsetNs } := by
  rw [tapeFrom_eq]
  simp only [ScenarioScheduleV2.reference, Cursor.behind, Nat.zero_add]

theorem labelled_top (phases : List SchedulePhaseV2) : labelled (fun j => .top (0 + j)) phases = labelled .top phases := by
  simp only [Nat.zero_add]

theorem behind_start (flat : List FlatPhase) : (Cursor.behind ⟨0, 0⟩ flat).offsetNs = totalDuration flat := Nat.zero_add _

/-- Behind the checks of the structure the actions are all that is left to check. -/
theorem forM_validate_iff {phases : List SchedulePhaseV2} (h : ∀ phase ∈ phases, phase.check = .ok ()) :
    (∀ phase ∈ phases, validatePhaseActions phase = .ok ()) ↔
      ∀ phase ∈ phases, ∀ action ∈ phase.actions, action.validate = .ok () :=
  forall₂_congr fun phase hphase => validatePhaseActions_iff.trans
    (and_iff_right (SchedulePhaseV2.check_ok (h phase hphase)))

/-- The compiler accepts the acceptable schedules and makes the reference tape
of them. -/
theorem compileSchedule_iff (source : ScenarioScheduleV2) (compiled : CompiledScenarioV2) :
    compileSchedule source = .ok compiled ↔ source.Acceptable ∧ compiled = source.reference := by
  have hacceptable : source.Acceptable ↔ source.checkStructure = .ok () ∧ totalActions source.flattened ≤ maxCompiledEvents ∧
      (∀ phase ∈ source.flattenedPhases, ∀ action ∈ phase.actions, action.validate = .ok ()) ∧
        totalDuration source.flattened ≤ u64Max :=
    ⟨fun h => ⟨h.structured, h.few, h.valid, h.fits⟩, fun h => ⟨h.1, h.2.1, h.2.2.1, h.2.2.2⟩⟩
  rw [hacceptable, reference_eq, ← behind_start]
  simp only [compileSchedule, throw_eq_error, except_error_bind, bind_unit_ok_iff, guard_ok_iff, Nat.not_lt,
    ← ScenarioScheduleV2.totalActions_flattened]
  rw [and_assoc]
  refine and_congr_right fun hstructure => ?_
  rw [and_assoc]
  refine and_congr_right fun hfew => ?_
  have hchecks := ScenarioScheduleV2.flattened_check hstructure
  rw [except_bind_ok_iff, ← forM_validate_iff hchecks]
  have hlength := tapeFrom_length ⟨0, 0⟩ source.flattened
  have hstart : (⟨0, 0⟩ : Cursor).offsetNs ≤ u64Max := Nat.zero_le _
  cases hblock : source.repeatBlock with
  | none =>
    have hflat : source.flattened = labelled .top source.phases := by
      simp only [ScenarioScheduleV2.flattened, hblock, List.append_nil]
    have hphases : source.flattenedPhases = source.phases := by
      simp only [ScenarioScheduleV2.flattenedPhases, hblock, List.append_nil]
    simp only [Prod.exists, expandPhases_iff hstart, labelled_top, ← hflat, hphases]
    constructor
    · rintro ⟨events, cursor, ⟨hvalid, hfits, hpair⟩, hdone⟩
      cases hpair
      obtain ⟨-, hdone⟩ := guard_ok_iff.1 hdone
      cases hdone
      exact ⟨⟨hvalid, hfits⟩, rfl⟩
    · rintro ⟨⟨hvalid, hfits⟩, rfl⟩
      refine ⟨_, _, ⟨hvalid, hfits, rfl⟩, guard_ok_iff.2 ⟨?_, rfl⟩⟩
      rw [hlength]
      omega
  | some block =>
    have hflat : source.flattened = labelled .top source.phases ++ iterations block.phases 1 block.count := by
      simp only [ScenarioScheduleV2.flattened, hblock, iterations]
    obtain ⟨-, -, hbounds, -, -, -⟩ := (ScenarioScheduleV2.checkStructure_some hblock).1 hstructure
    obtain ⟨hpos, hcount, hlen⟩ := ScheduleRepeatV2.check_ok hbounds
    have hphases : (∀ phase ∈ source.flattenedPhases, validatePhaseActions phase = .ok ()) ↔
        (∀ phase ∈ source.phases, validatePhaseActions phase = .ok ()) ∧
          ∀ phase ∈ block.phases, validatePhaseActions phase = .ok () := by
      simp only [ScenarioScheduleV2.flattenedPhases, hblock, List.forall_mem_append, List.mem_flatten, List.mem_replicate]
      refine and_congr_right fun _ => ⟨fun h phase hphase => h phase ⟨_, ⟨by omega, rfl⟩, hphase⟩, ?_⟩
      rintro h phase ⟨phases, ⟨-, rfl⟩, hphase⟩
      exact h phase hphase
    rw [hphases]
    simp only [Prod.exists, expandPhases_iff hstart, labelled_top, bind_unit_ok_iff, guard_ok_iff, forM_ok_iff]
    simp only [except_bind_ok_iff, Prod.exists, guard_ok_iff]
    constructor
    · rintro ⟨events, cursor, ⟨htop, hfits, hpair⟩, -, -, hrepeated, rest, last, hrest, _, _, hdone, -, hcompiled⟩
      cases hpair
      obtain ⟨hall, hpair⟩ := (expandRepeat_iff hfits).1 hrest
      cases hpair
      cases hdone
      cases hcompiled
      rw [← Cursor.behind_append, ← hflat] at hall
      refine ⟨⟨⟨htop, hrepeated⟩, hall⟩, ?_⟩
      rw [hflat, tapeFrom_append, Cursor.behind_append]
    · rintro ⟨⟨⟨htop, hrepeated⟩, hall⟩, rfl⟩
      rw [hflat, Cursor.behind_append] at hall
      have hfits : (Cursor.behind ⟨0, 0⟩ (labelled .top source.phases)).offsetNs ≤ u64Max :=
        Nat.le_trans (Nat.le_add_right _ _) hall
      rw [hflat, tapeFrom_append] at hlength
      rw [hflat, tapeFrom_append, Cursor.behind_append]
      refine ⟨_, _, ⟨htop, hfits, rfl⟩, by omega, by omega, hrepeated, _, _, (expandRepeat_iff hfits).2 ⟨hall, rfl⟩,
        _, _, rfl,
        ?_, rfl⟩
      rw [hlength, ← hflat]
      omega

/-! ## Unrolling -/

/-- The offsets of the placed actions do not go back. -/
theorem placed_ordered (flat : List FlatPhase) : (placed flat).Pairwise fun p q => p.2.1 ≤ q.2.1 := by
  induction flat with
  | nil => exact List.Pairwise.nil
  | cons entry flat ih =>
    rw [placed_cons]
    refine List.pairwise_append.2 ⟨?_, ?_, ?_⟩
    · exact List.pairwise_map.2 (List.pairwise_of_forall fun _ _ => Nat.le_refl 0)
    · exact List.pairwise_map.2 (ih.imp fun h => Nat.add_le_add_left h _)
    · intro p hp q _
      obtain ⟨action, -, rfl⟩ := List.mem_map.1 hp
      exact Nat.zero_le _

theorem reference_ordered (source : ScenarioScheduleV2) :
    source.reference.events.Pairwise fun e e' => e.offsetNs ≤ e'.offsetNs := by
  have hoffsets : source.reference.events.map (·.offsetNs) = (placed source.flattened).map (·.2.1) := by
    apply List.ext_getElem <;> simp [ScenarioScheduleV2.reference]
  rw [← List.pairwise_map (f := fun e : CompiledEventV2 => e.offsetNs) (R := (· ≤ ·)), hoffsets]
  exact List.pairwise_map.2 (placed_ordered source.flattened)

/-- Where actions are placed depends on the phases, not on what they stand for. -/
theorem placed_anonymous {flat flat' : List FlatPhase} (h : flat.map Prod.snd = flat'.map Prod.snd) :
    (placed flat).map Prod.snd = (placed flat').map Prod.snd := by
  induction flat generalizing flat' with
  | nil =>
    rw [List.map_nil, eq_comm, List.map_eq_nil_iff] at h
    rw [h]
  | cons entry flat ih =>
    cases flat' with
    | nil => cases h
    | cons entry' flat' =>
      obtain ⟨hentry, hflat⟩ := List.cons.inj h
      have hrest : (placed flat).map (fun p => (entry'.2.durationNs + p.2.1, p.2.2)) =
          (placed flat').map fun p => (entry'.2.durationNs + p.2.1, p.2.2) := by
        have := congrArg (List.map fun q : Nat × ScenarioAction => (entry'.2.durationNs + q.1, q.2)) (ih hflat)
        simpa only [List.map_map, Function.comp_def] using this
      simp only [placed_cons, List.map_append, List.map_map, Function.comp_def, hentry, hrest]

/-- A tape without what its events' phases are. -/
def CompiledScenarioV2.anonymous (compiled : CompiledScenarioV2) : CompiledScenarioV2 :=
  { compiled with events := compiled.events.map fun event => { event with phase := .top 0 } }

theorem unrolled_phases (source : ScenarioScheduleV2) : source.unrolled.flattenedPhases = source.flattenedPhases :=
  List.append_nil _

theorem reference_unrolled (source : ScenarioScheduleV2) :
    source.unrolled.reference.anonymous = source.reference.anonymous := by
  have hphases : source.unrolled.flattened.map Prod.snd = source.flattened.map Prod.snd := by
    rw [ScenarioScheduleV2.flattened_phases, ScenarioScheduleV2.flattened_phases, unrolled_phases]
  have hevents (identified : List (CompiledPhaseIdentity × Nat × ScenarioAction)) :
      (identified.mapIdx fun i entry => (⟨i, entry.1, entry.2.1, entry.2.2⟩ : CompiledEventV2)).map
          (fun event => { event with phase := .top 0 }) =
        (identified.map Prod.snd).mapIdx fun i entry => ⟨i, .top 0, entry.1, entry.2⟩ := by
    apply List.ext_getElem <;> simp
  have hduration : totalDuration source.unrolled.flattened = totalDuration source.flattened := by
    rw [ScenarioScheduleV2.totalDuration_flattened, unrolled_phases, ← ScenarioScheduleV2.totalDuration_flattened]
  simp only [ScenarioScheduleV2.reference, CompiledScenarioV2.anonymous, hevents, hduration, placed_anonymous hphases]
  rfl

/-- A structured schedule is acceptable if it is so written out. -/
theorem ScenarioScheduleV2.Acceptable.of_unrolled {source : ScenarioScheduleV2} (hstructure : source.checkStructure = .ok ())
    (h : source.unrolled.Acceptable) : source.Acceptable := by
  refine ⟨hstructure, ?_, ?_, ?_⟩
  · have := h.few
    rwa [totalActions_flattened, unrolled_phases, ← totalActions_flattened] at this
  · have := h.valid
    rwa [unrolled_phases] at this
  · have := h.fits
    rwa [totalDuration_flattened, unrolled_phases, ← totalDuration_flattened] at this

/-- The compiler equals its reference: what it accepts and what it makes of
that, in order of time; and a structured schedule compiles, but for the phase
identities, as it does with the repeat block written out, if that is accepted. -/
theorem compileSchedule_reference (source : ScenarioScheduleV2) :
    (∀ compiled, compileSchedule source = .ok compiled ↔ source.Acceptable ∧ compiled = source.reference) ∧
      (source.reference.events.Pairwise fun e e' => e.offsetNs ≤ e'.offsetNs) ∧
      (source.checkStructure = .ok () → ∀ unrolled, compileSchedule source.unrolled = .ok unrolled →
        ∃ compiled, compileSchedule source = .ok compiled ∧ compiled.anonymous = unrolled.anonymous) := by
  refine ⟨compileSchedule_iff source, reference_ordered source, fun hstructure unrolled hunrolled => ?_⟩
  obtain ⟨hacceptable, rfl⟩ := (compileSchedule_iff _ _).1 hunrolled
  exact ⟨source.reference, (compileSchedule_iff _ _).2 ⟨.of_unrolled hstructure hacceptable, rfl⟩,
    (reference_unrolled source).symm⟩

/-- One removal a second, over and over in a block repeated `count` times. -/
def removals (count : Nat) : ScenarioScheduleV2 where
  version := 2
  seed := 7
  executionKey := 1
  isolation := .strict
  cleanup := .leave
  phases := [⟨none, 1000000000, [.removeFault "web" .upstream "lag"]⟩]
  repeatBlock := some ⟨count, [⟨some "again", 1000000000, [.removeFault "web" .upstream "lag"]⟩]⟩

theorem compileSchedule_reference_removals :
    (removals 2).reference.events.map (·.offsetNs) = [0, 1000000000, 2000000000] ∧
      ∃ compiled, compileSchedule (removals 2) = .ok compiled ∧
        compiled.anonymous = (removals 2).unrolled.reference.anonymous :=
  ⟨by decide, (compileSchedule_reference (removals 2)).2.2 (by decide) _ (by decide)⟩

/-- A block repeated no times compiles to nothing written out, and is refused as
it stands. -/
theorem zero_repeat_refused :
    compileSchedule (removals 0).unrolled = .ok (removals 0).unrolled.reference ∧
      compileSchedule (removals 0) = .error (.repeatOutOfRange 0) := by
  exact ⟨by decide, by decide⟩

end Eggchaos
