import Eggchaos.Scenarios
import Eggchaos.Lib.Runs
/-!
# The lifecycle of scenario runs

Records move forward and finished ones stay as they are, except where a driver
writes without looking: its first write makes a run that is already being
cancelled show as running again, and a schedule run shows its terminal status
before its cleanup. Admission never drops an active run and keeps a family
within its capacity, whatever the drivers write.
-/

namespace Eggchaos
open Lib

/-! ## Records of a family -/

namespace Family
variable {ε κ : Type} {f : Family ε κ}

/-- One record for an id. -/
def Unique (f : Family ε κ) : Prop := (f.runs.map (·.1)).Nodup

theorem get_mem {id : Nat} {r : RunRecord ε κ} (h : f.get id = some r) : (id, r) ∈ f.runs := by
  obtain ⟨⟨id', r'⟩, hfind, rfl⟩ := Option.map_eq_some_iff.1 h
  have hid : id' = id := by simpa using List.find?_some hfind
  subst hid
  exact List.mem_of_find?_eq_some hfind

theorem Unique.get (h : f.Unique) {id : Nat} {r : RunRecord ε κ} (hmem : (id, r) ∈ f.runs) : f.get id = some r := by
  unfold Unique at h
  unfold Family.get
  induction hruns : f.runs generalizing f with
  | nil => simp [hruns] at hmem
  | cons p rest ih =>
    rw [hruns] at h hmem
    rw [List.map_cons, List.nodup_cons] at h
    rcases List.mem_cons.1 hmem with rfl | hmem
    · simp
    · have hne : p.1 ≠ id := by
        rintro rfl
        exact h.1 (List.mem_map.2 ⟨_, hmem, rfl⟩)
      simp only [List.find?_cons, hne, decide_false]
      exact ih (f := ⟨rest, []⟩) h.2 hmem rfl

@[simp] theorem get_update (f : Family ε κ) (id id' : Nat) (g : RunRecord ε κ → RunRecord ε κ) :
    (f.update id g).get id' = if id' = id then (f.get id').map g else f.get id' := by
  unfold get update
  simp only
  induction f.runs with
  | nil => simp
  | cons p rest ih =>
    simp only [List.map_cons, List.find?_cons]
    by_cases hp : p.1 = id
    · by_cases hid : id' = id
      · simp [hp, hid]
      · have hne : id ≠ id' := fun h => hid h.symm
        simpa [hp, hid, hne] using ih
    · by_cases hp' : p.1 = id'
      · have hid : id' ≠ id := fun h => hp (hp'.trans h)
        simp [hp', hid]
      · simpa [hp, hp'] using ih

theorem update_unique (h : f.Unique) (id : Nat) (g : RunRecord ε κ → RunRecord ε κ) : (f.update id g).Unique := by
  unfold Unique update
  have hids : (f.runs.map fun p => if p.1 = id then (p.1, g p.2) else p).map (·.1) = f.runs.map (·.1) := by
    rw [List.map_map]
    refine List.map_congr_left fun p _ => ?_
    simp only [Function.comp_apply]
    split <;> rfl
  rw [hids]
  exact h

theorem get_removeRun (f : Family ε κ) (id id' : Nat) :
    (f.removeRun id).get id' = if id' = id then none else f.get id' := by
  unfold get removeRun
  simp only
  induction f.runs with
  | nil => simp
  | cons p rest ih =>
    by_cases hp : p.1 = id
    · by_cases hid : id' = id
      · simp [hid]
      · have hne : id ≠ id' := fun h => hid h.symm
        simpa [hp, hid, hne, List.find?_cons] using ih
    · by_cases hp' : p.1 = id'
      · have hid : id' ≠ id := fun h => hp (hp'.trans h)
        simp [hp', hid]
      · simpa [hp, hp', List.find?_cons] using ih

theorem removeRun_unique (h : f.Unique) (id : Nat) : (f.removeRun id).Unique :=
  h.sublist (List.filter_sublist.map _)

theorem insertRun_perm {id : Nat} {runs : List (Nat × RunRecord ε κ)} (hfree : ∀ p ∈ runs, p.1 ≠ id)
    (record : RunRecord ε κ) : (insertRun id record runs).Perm ((id, record) :: runs) := by
  induction runs with
  | nil => exact .refl _
  | cons p rest ih =>
    simp only [insertRun]
    split
    · exact ((ih fun q hq => hfree q (List.mem_cons_of_mem _ hq)).cons _).trans (.swap _ _ _)
    · rw [if_neg (hfree p (by simp))]

/-- What is dropped to make room is the record of a finished run. -/
theorem makeRoom_cases (f : Family ε κ) :
    f.makeRoom = f ∧ (f.runs.length < scenarioFamilyCapacity ∨ ∀ p ∈ f.runs, p.2.status.active = true) ∨
      ∃ p ∈ f.runs, p.2.status.active = false ∧ f.makeRoom = f.removeRun p.1 := by
  unfold makeRoom
  split
  · unfold firstOldestFinished
    cases hfind : f.runs.find? (!·.2.status.active) with
    | none =>
      refine .inl ⟨rfl, .inr ?_⟩
      simpa using List.find?_eq_none.1 hfind
    | some p =>
      have hp : p.2.status.active = false := by simpa using List.find?_some hfind
      exact .inr ⟨p, List.mem_of_find?_eq_some hfind, hp, rfl⟩
  · next h => exact .inl ⟨rfl, .inl (by omega)⟩

theorem makeRoom_unique (h : f.Unique) : f.makeRoom.Unique := by
  rcases f.makeRoom_cases with ⟨he, -⟩ | ⟨p, -, -, he⟩
  · rw [he]
    exact h
  · rw [he]
    exact removeRun_unique h _

/-- A record that is there after making room was there before, and only finished
ones are gone. -/
theorem get_makeRoom (h : f.Unique) (id : Nat) :
    f.makeRoom.get id = f.get id ∨ (f.makeRoom.get id = none ∧ ∃ r, f.get id = some r ∧ r.status.active = false) := by
  rcases f.makeRoom_cases with ⟨he, -⟩ | ⟨p, hp, hfinished, he⟩
  · exact .inl (by rw [he])
  · rw [he, get_removeRun]
    by_cases hid : id = p.1
    · refine .inr ⟨by simp [hid], p.2, ?_, hfinished⟩
      rw [hid]
      exact h.get hp
    · exact .inl (by simp [hid])

/-- A run is admitted beside what is left after making room. -/
theorem get_admitRun (h : f.Unique) {id : Nat} (hfree : f.get id = none) {record : RunRecord ε κ} {f' : Family ε κ}
    (ha : f.admitRun id record = some f') :
    f'.Unique ∧ f'.runs.length = f.makeRoom.runs.length + 1 ∧
      ∀ id', f'.get id' = if id' = id then some record else f.makeRoom.get id' := by
  unfold admitRun at ha
  split at ha
  · cases ha
  · cases ha
    have hroom : f.makeRoom.get id = none := by
      rcases get_makeRoom h id with he | ⟨he, -⟩
      · rw [he, hfree]
      · exact he
    have hfree' : ∀ p ∈ f.makeRoom.runs, p.1 ≠ id := by
      rintro ⟨id', r⟩ hp rfl
      rw [(makeRoom_unique h).get hp] at hroom
      cases hroom
    have hperm := insertRun_perm hfree' record
    have hunique : Unique (⟨insertRun id record f.makeRoom.runs, f.makeRoom.tokens ++ [id]⟩ : Family ε κ) := by
      unfold Unique
      rw [(hperm.map _).nodup_iff, List.map_cons, List.nodup_cons]
      refine ⟨?_, makeRoom_unique h⟩
      intro hmem
      obtain ⟨p, hp, hid⟩ := List.mem_map.1 hmem
      exact hfree' p hp hid
    refine ⟨hunique, by simpa using hperm.length_eq, ?_⟩
    intro id'
    by_cases hid : id' = id
    · subst hid
      rw [if_pos rfl]
      exact hunique.get (hperm.symm.subset (by simp))
    · rw [if_neg hid]
      cases hget : f.makeRoom.get id' with
      | some r => exact hunique.get (hperm.symm.subset (List.mem_cons_of_mem _ (get_mem hget)))
      | none =>
        cases hget' : Family.get (⟨insertRun id record f.makeRoom.runs, f.makeRoom.tokens ++ [id]⟩ : Family ε κ) id' with
        | none => rfl
        | some r =>
          rcases List.mem_cons.1 (hperm.subset (get_mem hget')) with heq | hmem
          · cases heq
            exact absurd rfl hid
          · rw [(makeRoom_unique h).get hmem] at hget
            cases hget

/-- Admission keeps the family within its capacity. -/
theorem admitRun_length (hlen : f.runs.length ≤ scenarioFamilyCapacity) {id : Nat} {record : RunRecord ε κ}
    {f' : Family ε κ} (h : f.Unique) (hfree : f.get id = none) (ha : f.admitRun id record = some f') :
    f'.runs.length ≤ scenarioFamilyCapacity := by
  obtain ⟨-, hlen', -⟩ := get_admitRun h hfree ha
  rw [hlen']
  unfold admitRun at ha
  split at ha
  · cases ha
  · next hactive =>
    rcases f.makeRoom_cases with ⟨he, hroom | hall⟩ | ⟨p, hp, hfinished, he⟩
    · rw [he]
      exact hroom
    · -- all are active, so there are fewer than the capacity
      have hcount : f.activeCount = f.runs.length := List.countP_eq_length.2 hall
      rw [he]
      omega
    · have hlt : (f.removeRun p.1).runs.length < f.runs.length := by
        unfold removeRun
        refine List.length_filter_lt_length_iff_exists.2 ⟨p, hp, by simp⟩
      rw [he]
      omega

end Family

/-! ## What a lifecycle keeps -/

/-- A record is observed to move on: to a later status, and not at all once it is
terminal. -/
def Forward {ε κ : Type} (r r' : RunRecord ε κ) : Prop :=
  r.status.rank ≤ r'.status.rank ∧ (r.status.active = false → r' = r)

theorem RunStatus.rank_of_finished {status : RunStatus} (h : status.active = false) : status.rank = 3 := by
  cases status <;> first | rfl | cases h

theorem Forward.refl {ε κ : Type} (r : RunRecord ε κ) : Forward r r := ⟨Nat.le_refl _, fun _ => rfl⟩

theorem Forward.trans {ε κ : Type} {r r' r'' : RunRecord ε κ} (h : Forward r r') (h' : Forward r' r'') :
    Forward r r'' := by
  refine ⟨h.1.trans h'.1, fun hfinished => ?_⟩
  have hsame := h.2 hfinished
  rw [hsame] at h'
  exact h'.2 hfinished

/-- Whether the cleanup of a run is reported, in a family that reports it. -/
class Reports (κ : Type) where
  reported : κ → Bool

instance : Reports Unit := ⟨fun _ => true⟩
instance : Reports (Option CleanupOutcome) := ⟨Option.isSome⟩

/-- A terminal record carries its cleanup. -/
def Settled {ε κ : Type} [Reports κ] (r : RunRecord ε κ) : Prop :=
  r.status.active = false → Reports.reported r.cleanup = true

/-- No record belongs to this stage yet. -/
def Stage.early {κ : Type} : Stage κ → Bool
  | .unused | .admitting => true
  | _ => false

/-- What the record of a run shows at each stage, if its driver looks before it
writes. -/
def Suits {ε κ : Type} [Inhabited κ] [Reports κ] (stage : Stage κ) (r : RunRecord ε κ) : Prop :=
  match stage with
  | .unused | .admitting | .reporting _ => False
  | .registered | .queued => (r.status = .pending ∨ r.status = .cancelling) ∧ r.cleanup = default
  | .preparing | .driving => (r.status = .running ∨ r.status = .cancelling) ∧ r.cleanup = default
  | .leaving | .ended => r.status.active = false ∧ Settled r

section
variable {ε κ : Type} {r : RunRecord ε κ}

theorem begin_forward_iff [Reports κ] (h : r.status = .pending ∨ r.status = .cancelling) :
    Forward r r.begin ∧ Settled r.begin ↔ r.status ≠ .cancelling := by
  rcases h with h | h <;> simp [Forward, Settled, RunRecord.begin, h, RunStatus.rank, RunStatus.active]

theorem active_of_driving (h : r.status = .running ∨ r.status = .cancelling) : r.status.active = true := by
  rcases h with h | h <;> rw [h] <;> rfl

theorem addEvent_forward [Reports κ] (h : r.status.active = true) (e : ε) :
    Forward r (r.addEvent e) ∧ Settled (r.addEvent e) := by
  simp [Forward, Settled, RunRecord.addEvent, h]

/-- A record that is active moves forward to a terminal status. -/
theorem forward_finished {r' : RunRecord ε κ} (h : r.status.active = true) (h' : r'.status.active = false) :
    Forward r r' := by
  refine ⟨?_, fun hf => by rw [h] at hf; cases hf⟩
  rw [RunStatus.rank_of_finished h']
  cases r.status <;> decide

/-- A cancellation moves a record forward. -/
theorem markCancelling_forward (r : RunRecord ε κ) : Forward r r.markCancelling := by
  unfold RunRecord.markCancelling
  cases hs : r.status <;> simp [Forward, RunStatus.rank, RunStatus.active, hs]

theorem close_finished (ending : Ending) (r : RunRecord ε κ) :
    (r.close ending).status.active = false ∧ (r.close ending).cleanup = r.cleanup := by
  cases ending <;> exact ⟨rfl, rfl⟩

end

/-- The writes of a driver: `hasty` are those that it should not make, over a
record of this status. -/
class LawfulProgram (δ : Type) (ε κ : outParam Type) [Inhabited κ] [Program δ ε κ] [Reports κ] where
  hasty : δ → RunStatus → Bool
  late : ∀ {stage stage' : Stage κ} {deed : δ}, Program.next stage deed = some stage' →
    stage.early = false ∧ stage'.early = false
  forward_iff : ∀ {stage stage' : Stage κ} {deed : δ} {r : RunRecord ε κ}, Program.next stage deed = some stage' →
    Suits stage r → (Forward r (Program.write stage deed r) ∧ Settled (Program.write stage deed r) ↔
      hasty deed r.status = false)
  suits : ∀ {stage stage' : Stage κ} {deed : δ} {r : RunRecord ε κ}, Program.next stage deed = some stage' →
    Suits stage r → hasty deed r.status = false → Suits stage' (Program.write stage deed r)

/-- The first write over a record that is being cancelled. -/
def DriveV1.hasty : DriveV1 → RunStatus → Bool
  | .begin, .cancelling => true
  | _, _ => false

/-- The first write over a record that is being cancelled, and the status of an
outcome, which comes before its cleanup. -/
def DriveV2.hasty : DriveV2 → RunStatus → Bool
  | .begin, .cancelling => true
  | .finish _ _ _, _ => true
  | _, _ => false

instance : LawfulProgram DriveV1 ScenarioEventResult Unit where
  hasty := DriveV1.hasty
  late {stage stage' deed} h := by
    cases stage <;> cases deed <;> cases h <;> exact ⟨rfl, rfl⟩
  forward_iff {stage stage' deed r} h hs := by
    cases stage <;> cases deed <;> cases h
    · refine (begin_forward_iff hs.1).trans ?_
      rcases hs.1 with hs | hs <;> simp [DriveV1.hasty, hs]
    · exact iff_of_true (addEvent_forward (active_of_driving hs.1) _) rfl
    · next ending =>
      have hforward := forward_finished (active_of_driving hs.1) (close_finished ending r).1
      exact iff_of_true ⟨hforward, fun _ => rfl⟩ rfl
  suits {stage stage' deed r} h hs hok := by
    cases stage <;> cases deed <;> cases h
    · exact ⟨.inl rfl, hs.2⟩
    · exact hs
    · next ending => exact ⟨(close_finished ending r).1, fun _ => rfl⟩

instance : LawfulProgram DriveV2 ScheduleEventResult (Option CleanupOutcome) where
  hasty := DriveV2.hasty
  late {stage stage' deed} h := by
    cases stage <;> cases deed <;> cases h <;> exact ⟨rfl, rfl⟩
  forward_iff {stage stage' deed r} h hs := by
    -- the status of an outcome comes without its cleanup
    have hfinish : ∀ ending applied, (r.status = .running ∨ r.status = .cancelling) ∧ r.cleanup = default →
        ¬ Settled ({ r.close ending with applied } : ScenarioScheduleRunRecord) := by
      intro ending applied hs hsettled
      have hreported := hsettled (close_finished ending r).1
      simp only [(close_finished ending r).2, hs.2] at hreported
      cases hreported
    cases stage <;> cases deed <;> cases h
    · refine (begin_forward_iff hs.1).trans ?_
      rcases hs.1 with hs | hs <;> simp [DriveV2.hasty, hs]
    · next reason policy =>
      have hforward : Forward r { r.close (.failed reason) with cleanup := some ⟨policy, []⟩ } :=
        forward_finished (active_of_driving hs.1) rfl
      exact iff_of_true ⟨hforward, fun _ => rfl⟩ rfl
    · exact iff_of_true (addEvent_forward (active_of_driving hs.1) _) rfl
    · next ending applied cleanup => exact iff_of_false (fun h => hfinish ending applied hs h.2) (by simp [DriveV2.hasty])
    · exact iff_of_true (addEvent_forward (active_of_driving hs.1) _) rfl
    · next ending applied cleanup => exact iff_of_false (fun h => hfinish ending applied hs h.2) (by simp [DriveV2.hasty])
    · exact absurd hs id
  suits {stage stage' deed r} h hs hok := by
    cases stage <;> cases deed <;> cases h
    · exact ⟨.inl rfl, hs.2⟩
    · exact ⟨rfl, fun _ => rfl⟩
    · exact hs
    · cases hok
    · exact hs
    · cases hok
    · exact absurd hs id

/-! ## One family -/

namespace Side
variable {ε κ δ : Type}

/-- No active run is dropped. -/
def KeepsActive (s s' : Side ε κ) : Prop :=
  ∀ id r, s.family.get id = some r → r.status.active = true → s'.family.get id ≠ none

/-- One record for an id, within the capacity, for runs that have been admitted. -/
structure Kept (s : Side ε κ) : Prop where
  unique : s.family.Unique
  bounded : s.family.runs.length ≤ scenarioFamilyCapacity
  late : ∀ id r, s.family.get id = some r → (s.stage id).early = false

/-- An update of the record of one run. -/
theorem Kept.update {s : Side ε κ} (h : Kept s) (id : Nat) (g : RunRecord ε κ → RunRecord ε κ) {s' : Side ε κ}
    (hfamily : s'.family = s.family.update id g)
    (hlate : ∀ id r, s.family.get id = some r → (s'.stage id).early = false) : Kept s' ∧ KeepsActive s s' := by
  have hget : ∀ id', s'.family.get id' = if id' = id then (s.family.get id').map g else s.family.get id' := by
    intro id'
    rw [hfamily, Family.get_update]
  refine ⟨⟨?_, ?_, ?_⟩, ?_⟩
  · rw [hfamily]
    exact Family.update_unique h.unique id g
  · rw [hfamily]
    simpa [Family.update] using h.bounded
  · intro id' r' hr'
    rw [hget] at hr'
    split at hr'
    · obtain ⟨r, hr, -⟩ := Option.map_eq_some_iff.1 hr'
      exact hlate id' r hr
    · exact hlate id' r' hr'
  · intro id' r hr _
    rw [hget]
    split <;> simp [hr]

/-- Only tokens and stages change. -/
theorem Kept.restage {s s' : Side ε κ} (h : Kept s) (hruns : s'.family.runs = s.family.runs)
    (hlate : ∀ id r, s.family.get id = some r → (s'.stage id).early = false) : Kept s' ∧ KeepsActive s s' := by
  have hget : ∀ id, s'.family.get id = s.family.get id := by
    intro id
    unfold Family.get
    rw [hruns]
  refine ⟨⟨?_, ?_, ?_⟩, ?_⟩
  · unfold Family.Unique
    rw [hruns]
    exact h.unique
  · rw [hruns]
    exact h.bounded
  · intro id r hr
    rw [hget] at hr
    exact hlate id r hr
  · intro id r hr _
    rw [hget, hr]
    simp

theorem setStage_early {s : Side ε κ} {id : Nat} {stage : Stage κ} (h : stage.early = false) (id' : Nat)
    (he : ((s.setStage id stage).stage id').early = true) : (s.stage id').early = true := by
  simp only [setStage] at he
  split at he
  · rw [h] at he
    cases he
  · exact he

variable [Reports κ]

/-- Every record observed in `s` has moved forward in `s'`, and terminal ones carry
their cleanup. -/
def Onward (s s' : Side ε κ) : Prop :=
  (∀ id r r', s.family.get id = some r → s'.family.get id = some r' → Forward r r') ∧
    ∀ id r', s'.family.get id = some r' → Settled r'

/-- A later state: what is recorded has moved forward from what was, unless the
run was still to be admitted. -/
structure Later (s s' : Side ε κ) : Prop where
  early : ∀ id, (s'.stage id).early = true → (s.stage id).early = true
  forward : ∀ id r', s'.family.get id = some r' →
    Settled r' ∧ ((s.stage id).early = true ∨ ∃ r, s.family.get id = some r ∧ Forward r r')

theorem Later.refl {s : Side ε κ} (h : ∀ id r, s.family.get id = some r → Settled r) : Later s s :=
  ⟨fun _ h => h, fun id r' hr => ⟨h id r' hr, .inr ⟨r', hr, .refl _⟩⟩⟩

theorem Later.trans {s s' s'' : Side ε κ} (h : Later s s') (h' : Later s' s'') : Later s s'' := by
  refine ⟨fun id he => h.early id (h'.early id he), fun id r'' hr => ?_⟩
  obtain ⟨hsettled, hearly | ⟨r', hr', hforward⟩⟩ := h'.forward id r'' hr
  · exact ⟨hsettled, .inl (h.early id hearly)⟩
  · obtain ⟨-, hearly | ⟨r, hr, hforward'⟩⟩ := h.forward id r' hr'
    · exact ⟨hsettled, .inl hearly⟩
    · exact ⟨hsettled, .inr ⟨r, hr, hforward'.trans hforward⟩⟩

/-- For admitted runs a later state is an onward one. -/
theorem Later.onward {s s' : Side ε κ} (h : Later s s') (hs : Kept s) : Onward s s' := by
  refine ⟨fun id r r' hr hr' => ?_, fun id r' hr' => (h.forward id r' hr').1⟩
  rcases (h.forward id r' hr').2 with hearly | ⟨r₀, hr₀, hforward⟩
  · rw [hs.late id r hr] at hearly
    cases hearly
  · rw [hr, Option.some.injEq] at hr₀
    rw [hr₀]
    exact hforward

variable [Inhabited κ]

structure Sound (s : Side ε κ) : Prop extends Kept s where
  suits : ∀ id r, s.family.get id = some r → Suits (s.stage id) r

theorem suits_settled {stage : Stage κ} {r : RunRecord ε κ} (h : Suits stage r) : Settled r := by
  have hactive : r.status.active = true → Settled r := fun ha hf => by rw [ha] at hf; cases hf
  cases stage with
  | unused => exact absurd h id
  | admitting => exact absurd h id
  | reporting cleanup => exact absurd h id
  | registered => rcases h.1 with hs | hs <;> exact hactive (by rw [hs]; rfl)
  | queued => rcases h.1 with hs | hs <;> exact hactive (by rw [hs]; rfl)
  | preparing => exact hactive (active_of_driving h.1)
  | driving => exact hactive (active_of_driving h.1)
  | leaving => exact h.2
  | ended => exact h.2

theorem suits_late {stage : Stage κ} {r : RunRecord ε κ} (h : Suits stage r) : stage.early = false := by
  cases stage <;> first | rfl | exact absurd h id

/-- A record that is being cancelled still suits its stage. -/
theorem markCancelling_suits {stage : Stage κ} {r : RunRecord ε κ} (h : Suits stage r) : Suits stage r.markCancelling := by
  have hfinished : r.status.active = false → r.markCancelling = r := by
    unfold RunRecord.markCancelling
    cases r.status <;> simp [RunStatus.active]
  have hactive : r.status.active = true → r.markCancelling.status = .cancelling ∧ r.markCancelling.cleanup = r.cleanup := by
    unfold RunRecord.markCancelling
    cases hs : r.status <;> simp [RunStatus.active, hs]
  cases stage with
  | unused => exact h
  | admitting => exact h
  | reporting cleanup => exact h
  | registered =>
    have ha := hactive (by rcases h.1 with hs | hs <;> rw [hs] <;> rfl)
    exact ⟨.inr ha.1, ha.2.trans h.2⟩
  | queued =>
    have ha := hactive (by rcases h.1 with hs | hs <;> rw [hs] <;> rfl)
    exact ⟨.inr ha.1, ha.2.trans h.2⟩
  | preparing =>
    have ha := hactive (active_of_driving h.1)
    exact ⟨.inr ha.1, ha.2.trans h.2⟩
  | driving =>
    have ha := hactive (active_of_driving h.1)
    exact ⟨.inr ha.1, ha.2.trans h.2⟩
  | leaving => rw [hfinished h.1]; exact h
  | ended => rw [hfinished h.1]; exact h

/-- A step leads to a sound, later state, if each record it leaves suits its stage
and has moved forward. -/
theorem Sound.moves {s s' : Side ε κ} (hunique : s'.family.Unique)
    (hbounded : s'.family.runs.length ≤ scenarioFamilyCapacity)
    (hearly : ∀ id, (s'.stage id).early = true → (s.stage id).early = true)
    (hget : ∀ id r', s'.family.get id = some r' → Suits (s'.stage id) r' ∧
      ((s.stage id).early = true ∨ ∃ r, s.family.get id = some r ∧ Forward r r')) : Sound s' ∧ Later s s' :=
  ⟨⟨⟨hunique, hbounded, fun id r' hr' => suits_late (hget id r' hr').1⟩, fun id r' hr' => (hget id r' hr').1⟩,
    ⟨hearly, fun id r' hr' => ⟨suits_settled (hget id r' hr').1, (hget id r' hr').2⟩⟩⟩

variable [Program δ ε κ] [LawfulProgram δ ε κ]

/-- The driver writes over a record that it should have looked at. -/
def Slips (s : Side ε κ) : SideOp δ → Prop
  | .drive id deed => (Program.next (s.stage id) deed).isSome = true ∧
      (s.family.get id).any (fun r => LawfulProgram.hasty deed r.status) = true
  | _ => False

instance (s : Side ε κ) (op : SideOp δ) : Decidable (s.Slips op) := by
  unfold Slips
  split <;> infer_instance

theorem step_kept {s : Side ε κ} (h : Kept s) (op : SideOp δ) : Kept (s.step op) ∧ KeepsActive s (s.step op) := by
  have hset : ∀ id stage, stage.early = false → ∀ id' r, s.family.get id' = some r →
      ((if id' = id then stage else s.stage id') : Stage κ).early = false := by
    intro id stage hstage id' r hr
    split
    · exact hstage
    · exact h.late id' r hr
  have hsame : Kept s ∧ KeepsActive s s := h.restage rfl h.late
  cases op with
  | admitRun id =>
    simp only [step]
    split
    · next hadmitting =>
      have hfree : s.family.get id = none := by
        cases hget : s.family.get id with
        | none => rfl
        | some r =>
          have hlate := h.late id r hget
          rw [hadmitting] at hlate
          cases hlate
      split
      · exact h.restage rfl (hset id .ended rfl)
      · next family hfamily =>
        obtain ⟨hunique, -, hget⟩ := Family.get_admitRun h.unique hfree hfamily
        refine ⟨⟨hunique, Family.admitRun_length h.bounded h.unique hfree hfamily, ?_⟩, ?_⟩
        · intro id' r' hr'
          simp only [setStage] at hr' ⊢
          rw [hget] at hr'
          split
          · rfl
          · next hne =>
            rw [if_neg hne] at hr'
            rcases Family.get_makeRoom h.unique id' with he | ⟨he, -⟩
            · rw [he] at hr'
              exact h.late id' r' hr'
            · rw [he] at hr'
              cases hr'
        · intro id' r hr hactive
          simp only [setStage]
          rw [hget]
          split
          · simp
          · rcases Family.get_makeRoom h.unique id' with he | ⟨-, r', hr', hfinished⟩
            · rw [he, hr]
              simp
            · -- a finished record is not this one
              rw [hr, Option.some.injEq] at hr'
              rw [hr', hfinished] at hactive
              cases hactive
    · exact hsame
  | spawn id =>
    simp only [step]
    split
    · exact h.restage rfl (hset id .queued rfl)
    · exact hsame
  | takeToken id =>
    simp only [step]
    split
    · exact h.restage rfl h.late
    · exact hsame
  | mark id =>
    simp only [step]
    split
    · exact h.update id .markCancelling rfl h.late
    · exact hsame
  | drive id deed =>
    simp only [step]
    split
    · exact hsame
    · next stage hnext => exact h.update id _ rfl (hset id stage (LawfulProgram.late hnext).2)
  | leave id =>
    simp only [step]
    split
    · exact h.restage rfl (hset id .ended rfl)
    · exact hsame

/-- Only tokens and stages change, and every record suits its new stage. -/
theorem Sound.restage {s s' : Side ε κ} (hkept : Kept s') (hruns : s'.family.runs = s.family.runs)
    (hearly : ∀ id, (s'.stage id).early = true → (s.stage id).early = true)
    (hsuits : ∀ id r, s.family.get id = some r → Suits (s'.stage id) r) : Sound s' ∧ Later s s' := by
  refine Sound.moves hkept.unique hkept.bounded hearly fun id r' hr' => ?_
  have hget : s'.family.get id = s.family.get id := by
    unfold Family.get
    rw [hruns]
  rw [hget] at hr'
  exact ⟨hsuits id r' hr', .inr ⟨r', hr', .refl _⟩⟩

/-- A step of a driver that does not slip, or of anybody else, moves forward. -/
theorem step_sound {s : Side ε κ} (h : Sound s) (op : SideOp δ) (hok : ¬ s.Slips op) :
    Sound (s.step op) ∧ Later s (s.step op) := by
  have hkept := (step_kept h.toKept op).1
  have hsame : Sound s ∧ Later s s := ⟨h, .refl fun id r hr => suits_settled (h.suits id r hr)⟩
  -- a stage that takes over the records of the one before
  have hrestage : ∀ (s' : Side ε κ) id stage, Kept s' → s'.family.runs = s.family.runs → stage.early = false →
      s'.stage = (s.setStage id stage).stage → (∀ r : RunRecord ε κ, Suits (s.stage id) r → Suits stage r) →
      Sound s' ∧ Later s s' := by
    intro s' id stage hkept hruns hearly hstage htakes
    refine Sound.restage hkept hruns ?_ ?_
    · intro id' he
      rw [hstage] at he
      exact setStage_early hearly id' he
    · intro id' r hr
      rw [hstage]
      simp only [setStage]
      split
      · next hid =>
        subst hid
        exact htakes r (h.suits id' r hr)
      · exact h.suits id' r hr
  cases op with
  | admitRun id =>
    simp only [step] at hkept ⊢
    split at hkept
    · next hadmitting =>
      split at hkept
      · next hfull =>
        exact hrestage _ id .ended hkept rfl rfl rfl fun r hs => by rw [hadmitting] at hs; exact absurd hs False.elim
      · next family hfamily =>
        have hfree : s.family.get id = none := by
          cases hget : s.family.get id with
          | none => rfl
          | some r =>
            have hs := h.suits id r hget
            rw [hadmitting] at hs
            exact absurd hs False.elim
        obtain ⟨-, -, hget⟩ := Family.get_admitRun h.unique hfree hfamily
        refine Sound.moves hkept.unique hkept.bounded (fun id' he => setStage_early rfl id' he) ?_
        intro id' r' hr'
        simp only [setStage] at hr' ⊢
        rw [hget] at hr'
        by_cases hid : id' = id
        · subst hid
          rw [if_pos rfl, Option.some.injEq] at hr'
          subst hr'
          rw [if_pos rfl, hadmitting]
          exact ⟨⟨.inl rfl, rfl⟩, .inl rfl⟩
        · rw [if_neg hid] at hr' ⊢
          rcases Family.get_makeRoom h.unique id' with he | ⟨he, -⟩
          · rw [he] at hr'
            exact ⟨h.suits id' r' hr', .inr ⟨r', hr', .refl _⟩⟩
          · rw [he] at hr'
            cases hr'
    · exact hsame
  | spawn id =>
    simp only [step] at hkept ⊢
    split at hkept
    · next hregistered =>
      exact hrestage _ id .queued hkept rfl rfl rfl fun r hs => by rw [hregistered] at hs; exact hs
    · exact hsame
  | takeToken id =>
    simp only [step] at hkept ⊢
    split
    · exact Sound.restage (by rwa [if_pos ‹_›] at hkept) rfl (fun _ he => he) h.suits
    · exact hsame
  | mark id =>
    simp only [step] at hkept ⊢
    split
    · next hmarking =>
      rw [if_pos hmarking] at hkept
      refine Sound.moves hkept.unique hkept.bounded (fun _ he => he) ?_
      intro id' r' hr'
      simp only [Family.get_update] at hr'
      split at hr'
      · obtain ⟨r, hr, rfl⟩ := Option.map_eq_some_iff.1 hr'
        exact ⟨markCancelling_suits (h.suits id' r hr), .inr ⟨r, hr, markCancelling_forward r⟩⟩
      · exact ⟨h.suits id' r' hr', .inr ⟨r', hr', .refl _⟩⟩
    · exact hsame
  | drive id deed =>
    simp only [step] at hkept ⊢
    cases hnext : Program.next (s.stage id) deed with
    | none => exact hsame
    | some stage =>
      rw [hnext] at hkept
      simp only at hkept ⊢
      refine Sound.moves hkept.unique hkept.bounded
        (fun id' he => setStage_early (s := { s with family := s.family.update id _ }) (LawfulProgram.late hnext).2 id' he) ?_
      intro id' r' hr'
      simp only [setStage, Family.get_update] at hr' ⊢
      split
      · next hid =>
        subst hid
        rw [if_pos rfl] at hr'
        obtain ⟨r, hr, rfl⟩ := Option.map_eq_some_iff.1 hr'
        have hs := h.suits id' r hr
        have hcareful : LawfulProgram.hasty deed r.status = false := by
          simpa [Slips, hnext, hr] using hok
        exact ⟨LawfulProgram.suits hnext hs hcareful, .inr ⟨r, hr, ((LawfulProgram.forward_iff hnext hs).2 hcareful).1⟩⟩
      · next hid =>
        rw [if_neg hid] at hr'
        exact ⟨h.suits id' r' hr', .inr ⟨r', hr', .refl _⟩⟩
  | leave id =>
    simp only [step] at hkept ⊢
    split at hkept
    · next hleaving =>
      exact hrestage _ id .ended hkept rfl rfl rfl fun r hs => by rw [hleaving] at hs; exact hs
    · exact hsame

theorem step_onward_iff {s : Side ε κ} (h : Sound s) (op : SideOp δ) : Onward s (s.step op) ↔ ¬ s.Slips op := by
  constructor
  · intro honward hslips
    cases op with
    | drive id deed =>
      obtain ⟨hnext, hany⟩ := hslips
      obtain ⟨stage, hnext⟩ := Option.isSome_iff_exists.1 hnext
      cases hr : s.family.get id with
      | none => simp [hr] at hany
      | some r =>
        have hhasty : LawfulProgram.hasty deed r.status = true := by simpa [hr] using hany
        have hafter : (s.step (.drive id deed)).family.get id = some (Program.write (s.stage id) deed r) := by
          simp [step, hnext, setStage, hr]
        have hforward := (LawfulProgram.forward_iff hnext (h.suits id r hr)).1
          ⟨honward.1 id r _ hr hafter, honward.2 id _ hafter⟩
        rw [hhasty] at hforward
        cases hforward
    | admitRun id => exact hslips
    | spawn id => exact hslips
    | takeToken id => exact hslips
    | mark id => exact hslips
    | leave id => exact hslips
  · exact fun hok => (step_sound h op hok).2.onward h.toKept

/-- An id without a run stays so until it is given out. -/
theorem step_unused {s : Side ε κ} {id : Nat} (h : s.stage id = .unused) (op : SideOp δ) :
    (s.step op).stage id = .unused := by
  have hset : ∀ id' stage, s.stage id' ≠ .unused → (s.setStage id' stage).stage id = .unused := by
    intro id' stage hused
    simp only [setStage]
    rw [if_neg (fun heq => hused (by rw [← heq, h])), h]
  cases op with
  | admitRun id' =>
    simp only [step]
    split
    · next hadmitting =>
      split
      · exact hset id' .ended (by simp [hadmitting])
      · exact hset id' .registered (by simp [hadmitting])
    · exact h
  | spawn id' =>
    simp only [step]
    split
    · next hregistered => exact hset id' .queued (by simp [hregistered])
    · exact h
  | takeToken id' =>
    simp only [step]
    split <;> exact h
  | mark id' =>
    simp only [step]
    split <;> exact h
  | drive id' deed =>
    simp only [step]
    split
    · exact h
    · next stage hnext =>
      refine hset id' stage fun hunused => ?_
      have hlate := (LawfulProgram.late hnext).1
      rw [hunused] at hlate
      cases hlate
  | leave id' =>
    simp only [step]
    split
    · next hleaving => exact hset id' .ended (by simp [hleaving])
    · exact h

omit [Program δ ε κ] [LawfulProgram δ ε κ] in
/-- A fresh id is given out. -/
theorem start_sound {s : Side ε κ} (h : Sound s) {id : Nat} (hunused : s.stage id = .unused) :
    Sound (s.setStage id .admitting) ∧ Later s (s.setStage id .admitting) := by
  have hfree : ∀ id' r, s.family.get id' = some r → id' ≠ id := by
    rintro id' r hr rfl
    have hs := h.suits id' r hr
    rw [hunused] at hs
    exact hs
  refine Sound.moves h.unique h.bounded ?_ ?_
  · intro id' he
    simp only [setStage] at he
    split at he
    · next hid =>
      rw [hid, hunused]
      rfl
    · exact he
  · intro id' r' hr'
    simp only [setStage, if_neg (hfree id' r' hr')]
    exact ⟨h.suits id' r' hr', .inr ⟨r', hr', .refl _⟩⟩

end Side

/-! ## The registry -/

namespace ScenarioRegistry

/-- Both families have moved on. -/
def Onward (s s' : ScenarioRegistry) : Prop := s.v1.Onward s'.v1 ∧ s.v2.Onward s'.v2

def KeepsActive (s s' : ScenarioRegistry) : Prop := s.v1.KeepsActive s'.v1 ∧ s.v2.KeepsActive s'.v2

def Bounded (s : ScenarioRegistry) : Prop :=
  s.v1.family.runs.length ≤ scenarioFamilyCapacity ∧ s.v2.family.runs.length ≤ scenarioFamilyCapacity

def Slips (s : ScenarioRegistry) : Op → Prop
  | .v1 op => s.v1.Slips op
  | .v2 op => s.v2.Slips op
  | .startScenario | .startScheduleV2 | .cancelAll => False

instance (s : ScenarioRegistry) (op : Op) : Decidable (s.Slips op) := by
  unfold Slips
  split <;> infer_instance

/-- Ids from the next one on are unused. -/
def Fresh (s : ScenarioRegistry) : Prop := ∀ id, s.nextRunId ≤ id → s.v1.stage id = .unused ∧ s.v2.stage id = .unused

theorem step_fresh {s : ScenarioRegistry} (h : s.Fresh) (op : Op) : (s.step op).Fresh := by
  intro id hid
  cases op with
  | startScenario =>
    simp only [step] at hid
    obtain ⟨h1, h2⟩ := h id (by omega)
    refine ⟨?_, h2⟩
    simp only [step, Side.setStage]
    rw [if_neg (by omega), h1]
  | startScheduleV2 =>
    simp only [step] at hid
    obtain ⟨h1, h2⟩ := h id (by omega)
    refine ⟨h1, ?_⟩
    simp only [step, Side.setStage]
    rw [if_neg (by omega), h2]
  | v1 op => exact ⟨Side.step_unused (h id hid).1 op, (h id hid).2⟩
  | v2 op => exact ⟨(h id hid).1, Side.step_unused (h id hid).2 op⟩
  | cancelAll => exact h id hid

structure Kept (s : ScenarioRegistry) : Prop where
  v1 : s.v1.Kept
  v2 : s.v2.Kept
  fresh : s.Fresh

theorem step_kept {s : ScenarioRegistry} (h : Kept s) (op : Op) : Kept (s.step op) ∧ KeepsActive s (s.step op) := by
  have hfresh := step_fresh h.fresh op
  have hstart : ∀ {ε κ : Type} {side : Side ε κ}, side.Kept → side.stage s.nextRunId = .unused →
      (side.setStage s.nextRunId .admitting).Kept ∧ side.KeepsActive (side.setStage s.nextRunId .admitting) := by
    intro ε κ side hside hunused
    refine hside.restage rfl fun id r hr => ?_
    have hlate := hside.late id r hr
    simp only [Side.setStage]
    rw [if_neg, hlate]
    rintro rfl
    rw [hunused] at hlate
    cases hlate
  obtain ⟨hunused1, hunused2⟩ := h.fresh s.nextRunId (Nat.le_refl _)
  have hsame1 : s.v1.Kept ∧ s.v1.KeepsActive s.v1 := h.v1.restage rfl h.v1.late
  have hsame2 : s.v2.Kept ∧ s.v2.KeepsActive s.v2 := h.v2.restage rfl h.v2.late
  cases op with
  | startScenario =>
    have h1 := hstart h.v1 hunused1
    exact ⟨⟨h1.1, h.v2, hfresh⟩, h1.2, hsame2.2⟩
  | startScheduleV2 =>
    have h2 := hstart h.v2 hunused2
    exact ⟨⟨h.v1, h2.1, hfresh⟩, hsame1.2, h2.2⟩
  | v1 op =>
    have h1 := Side.step_kept h.v1 op
    exact ⟨⟨h1.1, h.v2, hfresh⟩, h1.2, hsame2.2⟩
  | v2 op =>
    have h2 := Side.step_kept h.v2 op
    exact ⟨⟨h.v1, h2.1, hfresh⟩, hsame1.2, h2.2⟩
  | cancelAll =>
    have h1 : Side.Kept { s.v1 with family := { s.v1.family with tokens := [] } } ∧
        s.v1.KeepsActive { s.v1 with family := { s.v1.family with tokens := [] } } := h.v1.restage rfl h.v1.late
    have h2 : Side.Kept { s.v2 with family := { s.v2.family with tokens := [] } } ∧
        s.v2.KeepsActive { s.v2 with family := { s.v2.family with tokens := [] } } := h.v2.restage rfl h.v2.late
    exact ⟨⟨h1.1, h2.1, hfresh⟩, h1.2, h2.2⟩

structure Sound (s : ScenarioRegistry) : Prop where
  v1 : s.v1.Sound
  v2 : s.v2.Sound
  fresh : s.Fresh

structure Later (s s' : ScenarioRegistry) : Prop where
  v1 : s.v1.Later s'.v1
  v2 : s.v2.Later s'.v2

theorem Sound.later_refl {s : ScenarioRegistry} (h : Sound s) : Later s s :=
  ⟨.refl fun id r hr => Side.suits_settled (h.v1.suits id r hr),
    .refl fun id r hr => Side.suits_settled (h.v2.suits id r hr)⟩

theorem step_sound {s : ScenarioRegistry} (h : Sound s) (op : Op) (hok : ¬ s.Slips op) :
    Sound (s.step op) ∧ Later s (s.step op) := by
  have hfresh := step_fresh h.fresh op
  obtain ⟨hunused1, hunused2⟩ := h.fresh s.nextRunId (Nat.le_refl _)
  have hsame := h.later_refl
  cases op with
  | startScenario =>
    have h1 := Side.start_sound h.v1 hunused1
    exact ⟨⟨h1.1, h.v2, hfresh⟩, h1.2, hsame.v2⟩
  | startScheduleV2 =>
    have h2 := Side.start_sound h.v2 hunused2
    exact ⟨⟨h.v1, h2.1, hfresh⟩, hsame.v1, h2.2⟩
  | v1 op =>
    have h1 := Side.step_sound h.v1 op hok
    exact ⟨⟨h1.1, h.v2, hfresh⟩, h1.2, hsame.v2⟩
  | v2 op =>
    have h2 := Side.step_sound h.v2 op hok
    exact ⟨⟨h.v1, h2.1, hfresh⟩, hsame.v1, h2.2⟩
  | cancelAll =>
    have hkept := (step_kept ⟨h.v1.toKept, h.v2.toKept, h.fresh⟩ .cancelAll).1
    have h1 := Side.Sound.restage (s := s.v1) hkept.v1 rfl (fun _ he => he) h.v1.suits
    have h2 := Side.Sound.restage (s := s.v2) hkept.v2 rfl (fun _ he => he) h.v2.suits
    exact ⟨⟨h1.1, h2.1, hfresh⟩, h1.2, h2.2⟩

theorem step_onward_iff {s : ScenarioRegistry} (h : Sound s) (op : Op) : Onward s (s.step op) ↔ ¬ s.Slips op := by
  have hsame1 : s.v1.Onward s.v1 := h.later_refl.v1.onward h.v1.toKept
  have hsame2 : s.v2.Onward s.v2 := h.later_refl.v2.onward h.v2.toKept
  have hmoves : ¬ s.Slips op → Onward s (s.step op) := fun hok =>
    ⟨(step_sound h op hok).2.v1.onward h.v1.toKept, (step_sound h op hok).2.v2.onward h.v2.toKept⟩
  cases op with
  | startScenario => exact iff_of_true (hmoves id) id
  | startScheduleV2 => exact iff_of_true (hmoves id) id
  | v1 op => exact ⟨fun honward => (Side.step_onward_iff h.v1 op).1 honward.1, hmoves⟩
  | v2 op => exact ⟨fun honward => (Side.step_onward_iff h.v2 op).1 honward.2, hmoves⟩
  | cancelAll => exact iff_of_true (hmoves id) id

theorem new_sound : Sound new := by
  refine ⟨⟨⟨List.nodup_nil, Nat.zero_le _, ?_⟩, ?_⟩, ⟨⟨List.nodup_nil, Nat.zero_le _, ?_⟩, ?_⟩, fun _ _ => ⟨rfl, rfl⟩⟩
  all_goals
    intro id r hr
    cases hr

/-- A run whose steps do not slip leads to a later state. -/
theorem run_later {s : ScenarioRegistry} (h : Sound s) {ops : List Op} (hok : Along step (fun s op => ¬ s.Slips op) s ops) :
    Later s (run step s ops) := by
  induction ops generalizing s with
  | nil => exact h.later_refl
  | cons op ops ih =>
    obtain ⟨hsound, hlater⟩ := step_sound h op hok.1
    have hrest := ih hsound hok.2
    exact ⟨hlater.v1.trans hrest.v1, hlater.v2.trans hrest.v2⟩

/-- In every interleaving the families stay within their capacity, drop no active
run and leave each other alone. Every record observed moves forward, and a
terminal one is final and complete, exactly if no driver's write slips. -/
theorem lifecycle_forward_iff (ops : List Op) :
    ((∀ pre mid, pre <+: mid → mid <+: ops → Onward (run step new pre) (run step new mid)) ↔
        Along step (fun s op => ¬ s.Slips op) new ops) ∧
      ∀ pre, pre <+: ops → Bounded (run step new pre) ∧ ∀ op, KeepsActive (run step new pre) ((run step new pre).step op) ∧
        (∀ op', op = .v1 op' → ((run step new pre).step op).v2 = (run step new pre).v2) ∧
        ∀ op', op = .v2 op' → ((run step new pre).step op).v1 = (run step new pre).v1 := by
  constructor
  · have hcongr := along_congr Sound (fun _ op h hok => (step_sound h op hok).1) (fun _ op h => step_onward_iff h op)
      new_sound ops
    constructor
    · intro hall
      refine hcongr.1 (along_iff_prefixes.2 fun pre op hpre => ?_)
      have honward := hall pre (pre ++ [op]) (List.prefix_append _ _) hpre
      rw [run_append] at honward
      exact honward
    · rintro hok pre mid ⟨post, rfl⟩ ⟨rest, rfl⟩
      obtain ⟨hpre, hpost⟩ := along_append.1 (along_append.1 hok).1
      have hsound := run_inv_along Sound (fun _ op h hok => (step_sound h op hok).1) new_sound hpre
      have hlater := run_later hsound hpost
      rw [run_append]
      exact ⟨hlater.v1.onward hsound.v1.toKept, hlater.v2.onward hsound.v2.toKept⟩
  · intro pre _
    have hkept : Kept (run step new pre) := run_inv Kept (fun _ op h => (step_kept h op).1)
      ⟨new_sound.v1.toKept, new_sound.v2.toKept, new_sound.fresh⟩ pre
    refine ⟨⟨hkept.v1.bounded, hkept.v2.bounded⟩, fun op => ⟨(step_kept hkept op).2, ?_, ?_⟩⟩
    · rintro op' rfl
      rfl
    · rintro op' rfl
      rfl

/-- A scenario run that fails while it is being cancelled. -/
theorem lifecycle_forward_failed :
    let ops : List Op := [.startScenario, .v1 (.admitRun 1), .v1 (.spawn 1), .v1 (.drive 1 .begin), .v1 (.takeToken 1),
      .v1 (.mark 1), .v1 (.drive 1 (.finish (.failed "conflict")))]
    ((run step new ops).v1.family.get 1).map (·.status) = some .failed ∧
      ∀ pre, pre <+: ops → Onward (run step new pre) (run step new ops) := by
  intro ops
  have hok : Along step (fun s op => ¬ s.Slips op) new ops :=
    ⟨show ¬ Slips _ _ by decide, show ¬ Slips _ _ by decide, show ¬ Slips _ _ by decide, show ¬ Slips _ _ by decide,
      show ¬ Slips _ _ by decide, show ¬ Slips _ _ by decide, show ¬ Slips _ _ by decide, trivial⟩
  exact ⟨by decide, fun pre hpre => (lifecycle_forward_iff ops).1.2 hok pre ops hpre (List.prefix_refl _)⟩

/-- A run that is cancelled before its task is polled shows as running again. -/
theorem cancelled_run_shown_running :
    ¬ ∀ ops pre mid : List Op, pre <+: mid → mid <+: ops → Onward (run step new pre) (run step new mid) := by
  intro hall
  have honward := hall _ [.startScenario, .v1 (.admitRun 1), .v1 (.spawn 1), .v1 (.takeToken 1), .v1 (.mark 1)]
    [.startScenario, .v1 (.admitRun 1), .v1 (.spawn 1), .v1 (.takeToken 1), .v1 (.mark 1), .v1 (.drive 1 .begin)]
    ⟨[.v1 (.drive 1 .begin)], rfl⟩ (List.prefix_refl _)
  have hforward := honward.1.1 1 ⟨.cancelling, 0, none, [], ()⟩ ⟨.running, 0, none, [], ()⟩ (by decide) (by decide)
  exact absurd hforward.1 (by decide)

end ScenarioRegistry

end Eggchaos
