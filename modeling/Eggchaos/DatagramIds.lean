import Eggchaos.DatagramEdits
/-!
# Datagram fault ids across directions

A fault is looked up by its id alone, so no id may stand in both plans once all
calls have answered. An addition checks the opposite plan, publishes, checks it
again and takes its fault back if the id has arrived there too. Between its
publication and its answer it answers for the id (`DatagramControl.heldByAdd`):
an id that both plans hold is always held by such an addition, unless a whole plan
is published over it or the publication that takes the fault back is refused
(`DatagramControl.KeepsIds`).
-/

namespace Eggchaos
open Lib

/-- The edit may take this fault out of a plan, or change it. -/
def DatagramEdit.Targets (fault : DatagramFaultSpec) : DatagramEdit → Prop
  | .add _ => False
  | .update id _ | .remove id => id = fault.id.value
  | .replace plan => fault ∉ plan.faults

/-- The fault of an addition that has published and not answered yet. -/
def DatagramTask.unsettled : DatagramTask → Option (Direction × DatagramFaultSpec)
  | .addVerifying d fault | .addRereading d fault | .addCompensating d fault _ _ _ => some (d, fault)
  | _ => none

namespace DatagramControl

/-- Call `c` has published, and since its last publication the plan of the
direction has held the id all along. -/
def HeldSince (c : Nat) (d : Direction) (id : FaultId) : List DatagramPublication → Bool
  | [] => false
  | p :: log =>
    if p.direction = d then p.policy.plan.hasId id && (p.caller = c || HeldSince c d id log)
    else HeldSince c d id log

/-- The id stands in a plan through an addition that has not answered yet. -/
def heldByAdd (s : DatagramControl) (id : FaultId) : Bool :=
  s.calls.zipIdx.any fun x => x.1.task.unsettled.any fun y => y.2.id = id && HeldSince x.2 y.1 id s.log

/-- The publication would go through. -/
def Admits (s : DatagramControl) (a : DatagramAttempt) : Prop :=
  a.plan.validate = .ok () ∧ a.expected.all (· = (s.policy a.direction).generation) ∧
    (s.policy a.direction).generation < u64Max

instance Admits.decidable (s : DatagramControl) (a : DatagramAttempt) : Decidable (s.Admits a) :=
  inferInstanceAs (Decidable (_ ∧ _ ∧ _))

/-- A whole plan that goes through brings no id that the opposite plan has for
good, and an addition takes its fault back or finds it gone. -/
def TaskKeepsIds (s : DatagramControl) (i : Nat) : DatagramTask → Prop
  | .publishing d plan seed expected =>
    s.Admits ⟨d, .replace plan, plan, seed, expected⟩ →
      ∀ fault ∈ plan.faults, (s.policy d.opposite).plan.hasId fault.id → s.heldByAdd fault.id
  | .addCompensating d fault plan generation seed =>
    s.Admits ⟨d, .remove fault.id.value, plan, seed, some generation⟩ ∨ HeldSince i d fault.id s.log = false
  | _ => True

instance TaskKeepsIds.decidable (s : DatagramControl) (i : Nat) : DecidablePred (s.TaskKeepsIds i)
  | .publishing _ _ _ _ => inferInstanceAs (Decidable (_ → _))
  | .addCompensating _ _ _ _ _ => inferInstanceAs (Decidable (_ ∨ _))
  | .adding _ _ | .addChecking _ _ _ _ _ | .addPublishing _ _ _ _ _ | .addVerifying _ _ | .addRereading _ _
  | .updating _ _ _ | .updatePublishing _ _ _ _ _ _ _ | .removing _ _ | .removePublishing _ _ _ _ _ | .done _ =>
    .isTrue trivial

/-- The same of a step: only these two sections of a call can break uniqueness. -/
def KeepsIds (s : DatagramControl) : DatagramEvent → Prop
  | .call _ => True
  | .proceed i => ∀ call ∈ s.calls[i]?, s.TaskKeepsIds i call.task

instance KeepsIds.decidable (s : DatagramControl) : DecidablePred s.KeepsIds
  | .call _ => .isTrue trivial
  | .proceed i => inferInstanceAs (Decidable (∀ call ∈ s.calls[i]?, s.TaskKeepsIds i call.task))

variable {first : Direction → PublishedDatagramPolicy} {s : DatagramControl} {i : Nat}

theorem heldByAdd_iff {id : FaultId} :
    s.heldByAdd id = true ↔ ∃ (c : Nat) (call : DatagramCall) (d : Direction) (fault : DatagramFaultSpec),
      s.calls[c]? = some call ∧ call.task.unsettled = some (d, fault) ∧ fault.id = id ∧ HeldSince c d id s.log := by
  simp only [heldByAdd, List.any_eq_true, List.mem_zipIdx_iff_getElem?, Option.any_eq_true, Bool.and_eq_true,
    decide_eq_true_eq, Prod.exists]
  constructor
  · rintro ⟨call, c, hcall, d, fault, hunsettled, hid, hheld⟩
    exact ⟨c, call, d, fault, hcall, hunsettled, hid, hheld⟩
  · rintro ⟨c, call, d, fault, hcall, hunsettled, hid, hheld⟩
    exact ⟨call, c, hcall, d, fault, hunsettled, hid, hheld⟩

theorem admits_of_publishes {a : DatagramAttempt} {policy : PublishedDatagramPolicy} (h : s.Publishes a policy) :
    s.Admits a := by
  refine ⟨h.plan ▸ policy.valid, ?_, ?_⟩
  · cases hexpected : a.expected with
    | none => rfl
    | some generation => simp [h.expected generation hexpected]
  · have := h.generation
    have := policy.fits
    omega

theorem not_admits_of_refused {a : DatagramAttempt} {e : ControlError} (h : s.publish i a = .error e) :
    ¬ s.Admits a := by
  rintro ⟨hvalid, hexpected, hlt⟩
  unfold publish at h
  split at h
  · next herror =>
    rw [hvalid] at herror
    cases herror
  · simp only at h
    split at h
    · next generation hfilter =>
      obtain ⟨hsome, hne⟩ := Option.filter_eq_some_iff.1 hfilter
      rw [hsome] at hexpected
      simp only [Option.all_some, decide_eq_true_eq] at hexpected
      simp [hexpected] at hne
    · rw [dif_pos hlt] at h
      cases h

end DatagramControl

/-! ## What an edit does to the ids of a plan -/

theorem DatagramFaultPatch.patched_id {patch : DatagramFaultPatch} {fault fault' : DatagramFaultSpec}
    (h : patch.patched fault = .ok fault') : fault'.id = fault.id := by
  unfold patched at h
  split at h
  · cases h; rfl
  · split at h
    · cases h
    · cases h; rfl

/-- An id in the plan after an edit was there before, or the edit brought it. -/
theorem DatagramEdit.Applies.id_from {edit : DatagramEdit} {before after : List DatagramFaultSpec}
    (h : edit.Applies before after) {fault : DatagramFaultSpec} (hfault : fault ∈ after) :
    (∃ other ∈ before, other.id = fault.id) ∨ edit = .add fault ∨ ∃ plan, edit = .replace plan := by
  cases edit with
  | add new =>
    obtain ⟨-, rfl⟩ := h
    rcases List.mem_append.1 hfault with hold | hnew
    · exact .inl ⟨fault, hold, rfl⟩
    · rw [List.mem_singleton.1 hnew]
      exact .inr (.inl rfl)
  | update id patch =>
    obtain ⟨old, new, hfound, hpatched, rfl⟩ := h
    rcases List.mem_or_eq_of_mem_set hfault with hold | rfl
    · exact .inl ⟨fault, hold, rfl⟩
    · exact .inl ⟨old, List.mem_of_find?_eq_some hfound, (DatagramFaultPatch.patched_id hpatched).symm⟩
  | remove id =>
    subst h
    exact .inl ⟨fault, (List.mem_filter.1 hfault).1, rfl⟩
  | replace plan => exact .inr (.inr ⟨plan, rfl⟩)

/-- An edit keeps every fault that it does not target. -/
theorem DatagramEdit.Applies.keeps {edit : DatagramEdit} {before after : List DatagramFaultSpec}
    (h : edit.Applies before after) {fault : DatagramFaultSpec} (hfault : fault ∈ before) :
    fault ∈ after ∨ edit.Targets fault := by
  cases edit with
  | add new =>
    obtain ⟨-, rfl⟩ := h
    exact .inl (List.mem_append_left _ hfault)
  | update id patch =>
    obtain ⟨old, new, hfound, hpatched, rfl⟩ := h
    by_cases hid : id = fault.id.value
    · exact .inr hid
    · refine .inl ?_
      obtain ⟨k, hk, rfl⟩ := List.getElem_of_mem hfault
      have hne : firstWithId id before ≠ k := by
        rintro rfl
        have hat := List.findIdx_getElem (w := hk)
        exact hid (of_decide_eq_true hat).symm
      refine List.mem_iff_getElem.2 ⟨k, by simpa using hk, ?_⟩
      rw [List.getElem_set_ne hne]
  | remove id =>
    subst h
    by_cases hid : id = fault.id.value
    · exact .inr hid
    · exact .inl (List.mem_filter.2 ⟨hfault, by simpa using Ne.symm hid⟩)
  | replace plan =>
    subst h
    exact Decidable.em _

namespace DatagramControl

variable {first : Direction → PublishedDatagramPolicy} {s : DatagramControl} {i : Nat}

/-! ## Faults that were added -/

/-- A fault stays from its publication on, until another publication targets it. -/
theorem latest_keeps {c : Nat} {d : Direction} {fault : DatagramFaultSpec} {p : DatagramPublication}
    {newer older : List DatagramPublication} (h : Chained first (newer ++ p :: older)) (hd : p.direction = d)
    (hedit : p.edit = .add fault) (hothers : ∀ q ∈ newer, q.caller ≠ c) :
    fault ∈ (latest first (newer ++ p :: older) d).plan.faults ∨
      ∃ q ∈ newer, q.direction = d ∧ q.caller ≠ c ∧ q.edit.Targets fault ∧ fault ∉ q.policy.plan.faults := by
  induction newer with
  | nil =>
    obtain ⟨-, happlies, -⟩ := h
    rw [hedit] at happlies
    refine .inl ?_
    rw [List.nil_append, latest, if_pos hd, happlies.2]
    exact List.mem_append_right _ (List.mem_singleton.2 rfl)
  | cons q newer ih =>
    obtain ⟨-, happlies, hrest⟩ := h
    rcases ih hrest (fun r hr => hothers r (List.mem_cons_of_mem _ hr)) with hin | ⟨r, hr, hgone⟩
    · by_cases hq : q.direction = d
      · rw [List.cons_append, latest, if_pos hq]
        by_cases hkept : fault ∈ q.policy.plan.faults
        · exact .inl hkept
        · rw [← hq] at hin
          have htargets := (happlies.keeps hin).resolve_left hkept
          exact .inr ⟨q, List.mem_cons_self, hq, hothers q List.mem_cons_self, htargets, hkept⟩
      · rw [List.cons_append, latest, if_neg hq]
        exact .inl hin
    · exact .inr ⟨r, List.mem_cons_of_mem _ hr, hgone⟩

/-- An addition that has answered that it succeeded published its fault, which is
there still or was taken out by another call. -/
theorem Ordered.added (h : Ordered first s) {c : Nat} {d : Direction} {fault : DatagramFaultSpec}
    {reply : DatagramReply} (hcall : s.calls[c]? = some ⟨.add d fault, .done (.ok reply)⟩) :
    ∃ newer p older, s.log = newer ++ p :: older ∧ p.caller = c ∧ p.direction = d ∧ p.edit = .add fault ∧
      (fault ∈ (s.policy d).plan.faults ∨
        ∃ q ∈ newer, q.direction = d ∧ q.caller ≠ c ∧ q.edit.Targets fault ∧ fault ∉ q.policy.plan.faults) := by
  obtain ⟨-, hedits⟩ := h.phase c _ hcall
  obtain ⟨p, hfilter, hp⟩ := List.map_eq_singleton_iff.1 hedits
  obtain ⟨newer, older, hlog, hothers, hcaller, -⟩ := List.filter_eq_cons_iff.1 hfilter
  simp only [decide_eq_true_eq] at hothers hcaller
  obtain ⟨hd, hedit⟩ := Prod.mk.inj hp
  refine ⟨newer, p, older, hlog, hcaller, hd, hedit, ?_⟩
  have hchained := h.chained
  rw [h.latest d, hlog]
  rw [hlog] at hchained
  exact latest_keeps hchained hd hedit hothers

/-! ## Ids that both plans hold -/

theorem heldSince_of_no_caller {c : Nat} {d : Direction} {id : FaultId} {log : List DatagramPublication}
    (h : ∀ p ∈ log, p.caller ≠ c) : HeldSince c d id log = false := by
  induction log with
  | nil => rfl
  | cons p log ih =>
    have hlog := ih fun q hq => h q (List.mem_cons_of_mem _ hq)
    have hp := h p List.mem_cons_self
    simp [HeldSince, hlog, hp]

theorem heldSince_of_editsBy {c : Nat} (h : s.editsBy c = []) (d : Direction) (id : FaultId) :
    HeldSince c d id s.log = false := by
  apply heldSince_of_no_caller
  intro p hp hcaller
  have hnil : s.log.filter (·.caller = c) = [] := List.map_eq_nil_iff.1 h
  have hmem : p ∈ s.log.filter (·.caller = c) := List.mem_filter.2 ⟨hp, by simpa using hcaller⟩
  rw [hnil] at hmem
  exact absurd hmem List.not_mem_nil

/-- A publication by another call that keeps the id leaves it held. -/
theorem HeldSince.cons {c : Nat} {d : Direction} {id : FaultId} {p : DatagramPublication}
    {log : List DatagramPublication} (h : HeldSince c d id log) (hp : p.direction = d → p.policy.plan.hasId id) :
    HeldSince c d id (p :: log) := by
  unfold HeldSince
  split
  · next hd => simp [hp hd, h]
  · exact h

/-- Another call's publication holds no id for this one. -/
theorem heldSince_cons_false {c : Nat} {d : Direction} {id : FaultId} {p : DatagramPublication}
    {log : List DatagramPublication} (h : HeldSince c d id log = false) (hp : p.caller ≠ c) :
    HeldSince c d id (p :: log) = false := by
  unfold HeldSince
  split
  · simp [hp, h]
  · exact h

/-- An id that both plans hold is held by an addition that has not answered yet,
and an addition that failed has left nothing in the plan. -/
structure Unique (s : DatagramControl) : Prop where
  shared : ∀ id, (s.policy .upstream).plan.hasId id → (s.policy .downstream).plan.hasId id → s.heldByAdd id
  failed : ∀ c d fault e, s.calls[c]? = some ⟨.add d fault, .done (.error e)⟩ → HeldSince c d fault.id s.log = false

/-- Both plans hold the id, whichever direction is named first. -/
theorem both_of_directions {policy : Direction → PublishedDatagramPolicy} {id : FaultId} (d : Direction)
    (hup : (policy .upstream).plan.hasId id) (hdown : (policy .downstream).plan.hasId id) :
    (policy d).plan.hasId id ∧ (policy d.opposite).plan.hasId id := by
  cases d with
  | upstream => exact ⟨hup, hdown⟩
  | downstream => exact ⟨hdown, hup⟩

theorem Unique.call (h : Unique s) (op : DatagramFaultOp) : Unique (s.step (.call op)) where
  shared id hup hdown := by
    obtain ⟨c, call, d, fault, hcall, hrest⟩ := heldByAdd_iff.1 (h.shared id hup hdown)
    refine heldByAdd_iff.2 ⟨c, call, d, fault, ?_, hrest⟩
    have hlt := (List.getElem?_eq_some_iff.1 hcall).1
    simp only [step, List.getElem?_append_left hlt, hcall]
  failed c d fault e hcall := by
    simp only [step, List.getElem?_append] at hcall
    split at hcall
    · exact h.failed c d fault e hcall
    · have hmem := List.mem_singleton.1 (List.mem_of_getElem? hcall)
      obtain ⟨rfl, hbegin⟩ := DatagramCall.mk.inj hmem
      cases hbegin

/-- The plan without the id passes its check, so a fault that must be taken back
can be. -/
theorem new_without (policy : PublishedDatagramPolicy) (id : FaultId) :
    DatagramPlan.new (policy.plan.faults.filter (·.id ≠ id)) = .ok ⟨policy.plan.faults.filter (·.id ≠ id)⟩ :=
  DatagramPlan.new_of_valid (DatagramPlan.validate_sublist List.filter_sublist policy.valid)

/-- An addition that answers for an id both plans hold goes on answering for it
while it reads. -/
theorem read_unsettled {task : DatagramTask} {d : Direction} {fault : DatagramFaultSpec}
    (h : task.unsettled = some (d, fault)) (hattempt : task.attempt = none) (name : String)
    {policy : Direction → PublishedDatagramPolicy} (hother : (policy d.opposite).plan.hasId fault.id) :
    (task.read name policy).unsettled = some (d, fault) := by
  cases task with
  | addVerifying d' fault' =>
    cases h
    simp only [DatagramTask.read, if_pos hother]
    rfl
  | addRereading d' fault' =>
    cases h
    simp only [DatagramTask.read, new_without]
    rfl
  | addCompensating d' fault' plan generation seed => cases hattempt
  | adding d' fault' => cases h
  | addChecking d' fault' plan generation seed => cases h
  | addPublishing d' fault' plan generation seed => cases h
  | updating d' id patch => cases h
  | updatePublishing d' id patch fault' plan generation seed => cases h
  | removing d' id => cases h
  | removePublishing d' id plan generation seed => cases h
  | publishing d' plan seed expected => cases h
  | done result => cases h

/-- A reading section that answers an addition with an error has nothing to take
back, unless the call had answered before. -/
theorem read_failed {task : DatagramTask} {d : Direction} {fault : DatagramFaultSpec}
    {edits : List (Direction × DatagramEdit)} (h : task.Phase (.add d fault) edits) {name : String}
    {policy : Direction → PublishedDatagramPolicy} {e : ControlError} (hattempt : task.attempt = none)
    (hread : task.read name policy = .done (.error e)) : edits = [] ∨ task = .done (.error e) := by
  cases task with
  | adding d' fault' => exact .inl h.2
  | addChecking d' fault' plan generation seed => exact .inl h.2
  | addVerifying d' fault' =>
    simp only [DatagramTask.read] at hread
    split at hread
    · cases hread
    · cases hread
  | addRereading d' fault' =>
    simp only [DatagramTask.read, new_without] at hread
    cases hread
  | done result => exact .inr hread
  | addPublishing d' fault' plan generation seed => cases hattempt
  | addCompensating d' fault' plan generation seed => cases hattempt
  | updating d' id patch => cases h.1
  | updatePublishing d' id patch fault' plan generation seed => cases h.1
  | removing d' id => cases h.1
  | removePublishing d' id plan generation seed => cases h.1
  | publishing d' plan seed expected => cases h.1

theorem Unique.read (h : Unique s) (ho : Ordered first s) {call : DatagramCall} (hcall : s.calls[i]? = some call)
    (hattempt : call.task.attempt = none) : Unique (s.goto i (call.task.read s.name s.policy)) where
  shared id hup hdown := by
    obtain ⟨c, call', d, fault, hcall', hunsettled, rfl, hheld⟩ := heldByAdd_iff.1 (h.shared id hup hdown)
    by_cases hci : c = i
    · subst hci
      rw [hcall] at hcall'
      cases hcall'
      refine heldByAdd_iff.2 ⟨c, _, d, fault, by rw [goto_call hcall, if_pos rfl], ?_, rfl, hheld⟩
      exact read_unsettled hunsettled hattempt _ (both_of_directions d hup hdown).2
    · refine heldByAdd_iff.2 ⟨c, call', d, fault, ?_, hunsettled, rfl, hheld⟩
      rw [goto_call hcall, if_neg hci, hcall']
  failed c d fault e hdone := by
    rw [goto_call hcall] at hdone
    split at hdone
    · next hci =>
      subst hci
      obtain ⟨hop, htask⟩ := DatagramCall.mk.inj (Option.some.inj hdone)
      have hphase := ho.phase c call hcall
      rw [hop] at hphase
      rcases read_failed hphase hattempt htask with hnil | hbefore
      · exact heldSince_of_editsBy hnil d fault.id
      · apply h.failed c d fault e
        rw [hcall, ← hop, ← hbefore]
    · exact h.failed c d fault e hdone

/-- A publication that is refused leaves no fault behind, if the addition that
wanted to take one back finds it gone. -/
theorem Unique.refuse (h : Unique s) (ho : Ordered first s) {call : DatagramCall} (hcall : s.calls[i]? = some call)
    {a : DatagramAttempt} (hattempt : call.task.attempt = some a) {e : ControlError}
    (hrefused : s.publish i a = .error e) (hkeeps : s.TaskKeepsIds i call.task) :
    Unique (s.goto i (call.task.refused e)) := by
  have hgone : ∀ d fault, call.task.unsettled = some (d, fault) → HeldSince i d fault.id s.log = false := by
    intro d fault hunsettled
    obtain ⟨op, task⟩ := call
    rcases DatagramTask.attempt_cases hattempt with ⟨d', fault', plan, generation, seed, rfl, rfl⟩ |
      ⟨d', fault', plan, generation, seed, rfl, rfl⟩ | ⟨d', id, patch, fault', plan, generation, seed, rfl, rfl⟩ |
      ⟨d', id, plan, generation, seed, rfl, rfl⟩ | ⟨d', plan, seed, expected, rfl, rfl⟩
    · cases hunsettled
    · cases hunsettled
      exact hkeeps.resolve_left (not_admits_of_refused hrefused)
    · cases hunsettled
    · cases hunsettled
    · cases hunsettled
  constructor
  · intro id hup hdown
    obtain ⟨c, call', d, fault, hcall', hunsettled, rfl, hheld⟩ := heldByAdd_iff.1 (h.shared id hup hdown)
    have hci : c ≠ i := by
      rintro rfl
      rw [hcall] at hcall'
      cases hcall'
      rw [hgone d fault hunsettled] at hheld
      cases hheld
    refine heldByAdd_iff.2 ⟨c, call', d, fault, ?_, hunsettled, rfl, hheld⟩
    rw [goto_call hcall, if_neg hci, hcall']
  · intro c d fault e' hdone
    rw [goto_call hcall] at hdone
    split at hdone
    · next hci =>
      subst hci
      obtain ⟨hop, -⟩ := DatagramCall.mk.inj (Option.some.inj hdone)
      have hphase := ho.phase c call hcall
      rw [hop] at hphase
      obtain ⟨op, task⟩ := call
      rcases DatagramTask.attempt_cases hattempt with ⟨d', fault', plan, generation, seed, rfl, rfl⟩ |
        ⟨d', fault', plan, generation, seed, rfl, rfl⟩ | ⟨d', id, patch, fault', plan, generation, seed, rfl, rfl⟩ |
        ⟨d', id, plan, generation, seed, rfl, rfl⟩ | ⟨d', plan, seed, expected, rfl, rfl⟩
      · exact heldSince_of_editsBy hphase.2 d fault.id
      · obtain ⟨hadd, -⟩ := hphase
        cases hadd
        exact hgone d fault rfl
      · cases hphase.1
      · cases hphase.1
      · cases hphase.1
    · exact h.failed c d fault e' hdone

/-- Another call's hold on an id that both plans still have outlives a publication. -/
theorem heldByAdd_publish {call : DatagramCall} (hcall : s.calls[i]? = some call) {a : DatagramAttempt}
    {policy : PublishedDatagramPolicy} {id : FaultId} (hheld : s.heldByAdd id)
    (hother : ∀ d fault, call.task.unsettled = some (d, fault) → fault.id ≠ id)
    (hin : policy.plan.hasId id) (task : DatagramTask) :
    ((s.withPublication i a policy).goto i task).heldByAdd id := by
  obtain ⟨c, call', d, fault, hcall', hunsettled, rfl, hsince⟩ := heldByAdd_iff.1 hheld
  have hci : c ≠ i := by
    rintro rfl
    rw [hcall] at hcall'
    cases hcall'
    exact hother d fault hunsettled rfl
  refine heldByAdd_iff.2 ⟨c, call', d, fault, ?_, hunsettled, rfl, HeldSince.cons hsince fun _ => hin⟩
  rw [goto_call (s := s.withPublication i a policy) hcall, if_neg hci]
  exact hcall'

/-- An addition that has just published holds its id. -/
theorem heldByAdd_published {call : DatagramCall} (hcall : s.calls[i]? = some call) {a : DatagramAttempt}
    {policy : PublishedDatagramPolicy} {fault : DatagramFaultSpec} (hin : policy.plan.hasId fault.id) :
    ((s.withPublication i a policy).goto i (.addVerifying a.direction fault)).heldByAdd fault.id := by
  refine heldByAdd_iff.2 ⟨i, ⟨call.op, .addVerifying a.direction fault⟩, a.direction, fault, ?_, rfl, rfl, ?_⟩
  · rw [goto_call (s := s.withPublication i a policy) hcall, if_pos rfl]
  · simp [withPublication, HeldSince, hin]

theorem Unique.publish (h : Unique s) (ho : Ordered first s) {call : DatagramCall} (hcall : s.calls[i]? = some call)
    {a : DatagramAttempt} (hattempt : call.task.attempt = some a) {policy : PublishedDatagramPolicy}
    (hpublishes : s.Publishes a policy) (hkeeps : s.TaskKeepsIds i call.task) :
    Unique ((s.withPublication i a policy).goto i call.task.published) where
  shared id hup hdown := by
    have happlies := ((ho.ready i call hcall).2 a hattempt).applies hpublishes.expected
    obtain ⟨hin, hopposite⟩ := both_of_directions a.direction hup hdown
    simp only [goto_policy, withPublication, Function.update_self] at hin
    simp only [goto_policy, withPublication, Function.update_of_ne a.direction.opposite_ne] at hopposite
    obtain ⟨fault, hfault, hid⟩ := DatagramPlan.hasId_iff.1 hin
    rw [hpublishes.plan] at hfault
    -- an id that was there before was held before
    have hbefore : (∃ other ∈ (s.policy a.direction).plan.faults, other.id = fault.id) → s.heldByAdd id := by
      intro hother
      have hsame := DatagramPlan.hasId_iff.2 hother
      rw [hid] at hsame
      cases hd : a.direction with
      | upstream =>
        rw [hd] at hsame hopposite
        exact h.shared id hsame hopposite
      | downstream =>
        rw [hd] at hsame hopposite
        exact h.shared id hopposite hsame
    obtain ⟨op, task⟩ := call
    rcases DatagramTask.attempt_cases hattempt with ⟨d, new, plan, generation, seed, rfl, rfl⟩ |
      ⟨d, new, plan, generation, seed, rfl, rfl⟩ | ⟨d, name, patch, new, plan, generation, seed, rfl, rfl⟩ |
      ⟨d, name, plan, generation, seed, rfl, rfl⟩ | ⟨d, plan, seed, expected, rfl, rfl⟩
    · by_cases hnew : new.id = id
      · subst hnew
        exact heldByAdd_published hcall hin
      · rcases happlies.id_from hfault with hother | hadd | ⟨_, hreplace⟩
        · refine heldByAdd_publish hcall (hbefore hother) ?_ hin _
          intro d' fault' hunsettled
          cases hunsettled
        · cases hadd
          exact absurd hid hnew
        · cases hreplace
    · have hgone : new.id ≠ id := by
        intro hnew
        have hmem : fault ∈ (s.policy d).plan.faults.filter (·.id.value ≠ new.id.value) := happlies ▸ hfault
        have hne := (List.mem_filter.1 hmem).2
        simp [hid, hnew] at hne
      rcases happlies.id_from hfault with hother | hadd | ⟨_, hreplace⟩
      · refine heldByAdd_publish hcall (hbefore hother) ?_ hin _
        intro d' fault' hunsettled
        cases hunsettled
        exact hgone
      · cases hadd
      · cases hreplace
    · rcases happlies.id_from hfault with hother | hadd | ⟨_, hreplace⟩
      · refine heldByAdd_publish hcall (hbefore hother) ?_ hin _
        intro d' fault' hunsettled
        cases hunsettled
      · cases hadd
      · cases hreplace
    · rcases happlies.id_from hfault with hother | hadd | ⟨_, hreplace⟩
      · refine heldByAdd_publish hcall (hbefore hother) ?_ hin _
        intro d' fault' hunsettled
        cases hunsettled
      · cases hadd
      · cases hreplace
    · have hheld := hkeeps (admits_of_publishes hpublishes) fault hfault (by rw [hid]; exact hopposite)
      rw [hid] at hheld
      refine heldByAdd_publish hcall hheld ?_ hin _
      intro d' fault' hunsettled
      cases hunsettled
  failed c d fault e hdone := by
    rw [goto_call (s := s.withPublication i a policy) hcall] at hdone
    split at hdone
    · next hci =>
      subst hci
      obtain ⟨hop, hpublished⟩ := DatagramCall.mk.inj (Option.some.inj hdone)
      have happlies := ((ho.ready c call hcall).2 a hattempt).applies hpublishes.expected
      have hphase := ho.phase c call hcall
      rw [hop] at hphase
      obtain ⟨op, task⟩ := call
      rcases DatagramTask.attempt_cases hattempt with ⟨d', new, plan, generation, seed, rfl, rfl⟩ |
        ⟨d', new, plan, generation, seed, rfl, rfl⟩ | ⟨d', name, patch, new, plan, generation, seed, rfl, rfl⟩ |
        ⟨d', name, plan, generation, seed, rfl, rfl⟩ | ⟨d', plan, seed, expected, rfl, rfl⟩
      · cases hpublished
      · obtain ⟨hadd, -⟩ := hphase
        cases hadd
        have hlacks : policy.plan.hasId fault.id = false := by
          rw [hpublishes.plan]
          have hfilter : plan.faults = (s.policy d).plan.faults.filter (·.id.value ≠ fault.id.value) := happlies
          simp [DatagramPlan.hasId, hfilter, FaultId.value_inj]
        simp [withPublication, HeldSince, hlacks]
      · cases hphase.1
      · cases hphase.1
      · cases hphase.1
    · next hci => exact heldSince_cons_false (h.failed c d fault e hdone) (Ne.symm hci)

theorem Unique.step (h : Unique s) (ho : Ordered first s) {event : DatagramEvent} (hkeeps : s.KeepsIds event) :
    Unique (s.step event) := by
  cases event with
  | call op => exact h.call op
  | proceed i =>
    cases hcall : s.calls[i]? with
    | none =>
      rw [step_proceed_none hcall]
      exact h
    | some call =>
      rw [step_proceed hcall]
      have htask := hkeeps call hcall
      rcases proceed_cases s i call.task with ⟨hnone, hnext⟩ | ⟨a, hattempt, ⟨e, hrefused, hnext⟩ | ⟨policy, hpublishes, hnext⟩⟩
      · rw [hnext]
        exact h.read ho hcall hnone
      · rw [hnext]
        exact h.refuse ho hcall hattempt hrefused htask
      · rw [hnext]
        exact h.publish ho hcall hattempt hpublishes htask

theorem Unique.start (name : String) (hfirst : ∀ id, (first .upstream).plan.hasId id → ¬ (first .downstream).plan.hasId id) :
    Unique (start name first) where
  shared id hup hdown := absurd hdown (hfirst id hup)
  failed c d fault e hdone := by cases hdone

theorem run_unique (name : String) (hfirst : ∀ id, (first .upstream).plan.hasId id → ¬ (first .downstream).plan.hasId id)
    {events : List DatagramEvent} (hkeeps : Along DatagramControl.step KeepsIds (DatagramControl.start name first) events) :
    Unique (reached name first events) := by
  have hboth := run_inv_along (fun s => Ordered first s ∧ Unique s)
    (fun s event hs hok => ⟨hs.1.step event, hs.2.step hs.1 hok⟩)
    ⟨Ordered.start name first, Unique.start name hfirst⟩ hkeeps
  exact hboth.2

/-- No call is in progress. -/
def Quiet (s : DatagramControl) : Prop := ∀ call ∈ s.calls, ∃ result, call.task = .done result

/-- With no addition in progress no id is held. -/
theorem Quiet.not_heldByAdd (h : s.Quiet) (id : FaultId) : ¬ s.heldByAdd id := by
  intro hheld
  obtain ⟨c, call, d, fault, hcall, hunsettled, -⟩ := heldByAdd_iff.1 hheld
  obtain ⟨result, hdone⟩ := h call (List.mem_of_getElem? hcall)
  rw [hdone] at hunsettled
  cases hunsettled

/-- In every run whose sections keep the ids apart, no id stands in both plans
while no call is in progress; a fault whose addition succeeded is there until
another call's publication takes it out; and one whose addition failed is not left
there by that call. -/
theorem ids_unique (name : String) (first : Direction → PublishedDatagramPolicy)
    (hfirst : ∀ id, (first .upstream).plan.hasId id → ¬ (first .downstream).plan.hasId id)
    (events : List DatagramEvent)
    (hkeeps : Along DatagramControl.step KeepsIds (DatagramControl.start name first) events) :
    ((reached name first events).Quiet →
      ∀ id, ((reached name first events).policy .upstream).plan.hasId id →
        ¬ ((reached name first events).policy .downstream).plan.hasId id) ∧
    (∀ (c : Nat) (d : Direction) (fault : DatagramFaultSpec) (reply : DatagramReply),
      (reached name first events).calls[c]? =
        some ⟨.add d fault, .done (.ok reply)⟩ →
      ∃ newer p older, (reached name first events).log = newer ++ p :: older ∧
        p.caller = c ∧ p.direction = d ∧ p.edit = .add fault ∧
        (fault ∈ ((reached name first events).policy d).plan.faults ∨
          ∃ q ∈ newer, q.direction = d ∧ q.caller ≠ c ∧ q.edit.Targets fault ∧ fault ∉ q.policy.plan.faults)) ∧
    ∀ (c : Nat) (d : Direction) (fault : DatagramFaultSpec) (e : ControlError),
      (reached name first events).calls[c]? =
        some ⟨.add d fault, .done (.error e)⟩ →
      HeldSince c d fault.id (reached name first events).log = false := by
  have ho := run_ordered name first events
  have h := run_unique name hfirst hkeeps
  refine ⟨?_, fun c d fault reply hcall => ho.added hcall, h.failed⟩
  intro hquiet id hup hdown
  exact hquiet.not_heldByAdd id (h.shared id hup hdown)

/-- The two crossing additions, and one more after both have failed. -/
def crossingThenAdded : List DatagramEvent :=
  crossing ++ .call (.add .upstream drops) :: List.replicate 4 (.proceed 2)

theorem ids_unique_crossing :
    ¬ ((reached "dns" created crossingThenAdded).policy .downstream).plan.hasId drops.id ∧
    (∃ newer p older, (reached "dns" created crossingThenAdded).log = newer ++ p :: older ∧ p.caller = 2 ∧
      p.direction = .upstream ∧ p.edit = .add drops ∧
      (drops ∈ ((reached "dns" created crossingThenAdded).policy .upstream).plan.faults ∨
        ∃ q ∈ newer, q.direction = .upstream ∧ q.caller ≠ 2 ∧ q.edit.Targets drops ∧ drops ∉ q.policy.plan.faults)) ∧
    HeldSince 0 .upstream drops.id (reached "dns" created crossingThenAdded).log = false := by
  have hfirst : ∀ id, (created .upstream).plan.hasId id → ¬ (created .downstream).plan.hasId id := by
    intro id hup
    cases hup
  obtain ⟨hdisjoint, hadded, hfailed⟩ := ids_unique "dns" created hfirst crossingThenAdded (by decide)
  have hquiet : (reached "dns" created crossingThenAdded).Quiet := by
    intro call hcall
    have hcalls : (reached "dns" created crossingThenAdded).calls =
        [⟨.add .upstream drops, .done (.error acrossDirections)⟩, ⟨.add .downstream drops, .done (.error acrossDirections)⟩,
          ⟨.add .upstream drops, .done (.ok (.added .upstream drops))⟩] := rfl
    rw [hcalls] at hcall
    rcases List.mem_cons.1 hcall with rfl | hcall
    · exact ⟨_, rfl⟩
    · rcases List.mem_cons.1 hcall with rfl | hcall
      · exact ⟨_, rfl⟩
      · rw [List.mem_singleton.1 hcall]
        exact ⟨_, rfl⟩
  exact ⟨hdisjoint hquiet drops.id (by decide), hadded 2 .upstream drops (.added .upstream drops) rfl,
    hfailed 0 .upstream drops acrossDirections rfl⟩

/-- A scenario publishes one fault upstream, and then downstream. -/
def publishedTwice : List DatagramEvent :=
  [.call (.publish .upstream ⟨[drops]⟩ 0 none), .proceed 0, .call (.publish .downstream ⟨[drops]⟩ 0 none), .proceed 1]

/-- Two crossing additions again; before the first takes its fault back, an update
moves the generation. -/
def crossingUpdated : List DatagramEvent :=
  .call (.add .upstream drops) :: .call (.add .downstream drops) ::
    (List.replicate 5 [.proceed 0, .proceed 1]).flatten ++
    .call (.update "drops" ⟨none, some (.reorder 0)⟩) :: [.proceed 2, .proceed 2, .proceed 0, .proceed 1]

/-- Both plans hold an id while nothing is in progress; and an addition answers
that it failed while its fault stands in the plan that it published. -/
theorem ids_shared :
    ((reached "dns" created publishedTwice).calls.map (·.task) = [.done (.ok .published), .done (.ok .published)] ∧
      ((reached "dns" created publishedTwice).policy .upstream).plan.hasId drops.id ∧
      ((reached "dns" created publishedTwice).policy .downstream).plan.hasId drops.id) ∧
    (reached "dns" created crossingUpdated).calls[0]? =
        some ⟨.add .upstream drops,
          .done (.error (.conflict "datagram fault id must be unique across directions for path lookup"))⟩ ∧
      HeldSince 0 .upstream drops.id (reached "dns" created crossingUpdated).log = true ∧
      ((reached "dns" created crossingUpdated).policy .upstream).plan.hasId drops.id :=
  ⟨⟨rfl, by decide, by decide⟩, rfl, by decide, by decide⟩

end DatagramControl

end Eggchaos
