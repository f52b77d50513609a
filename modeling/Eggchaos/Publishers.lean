import Eggchaos.Policy
import Eggchaos.Lib.Runs
import Mathlib.Data.List.Nodup
/-!
# Concurrent publishers

`LivePolicy::publish` and `publish_expected` run by any number of publishers at
once. The source keeps the snapshot in an `ArcSwap`: a call loads the current
`Arc`, builds the next policy from it, and swaps the pointer if it still is the
one it loaded; else it loads again. Each load and each swap is one step here,
and the steps of all calls interleave in any order.

The swap compares addresses, so the model has them. An `Arc::new` may return any
address that nothing refers to, also one that was used before; a call in
progress holds the `Arc` it loaded, so that address is not given out again and
an equal address still is an equal policy.

A call takes effect at its swap, or where it returns an error. Replaying the
calls one after the other in that order (`Request.perform`) gives the same
results and the same snapshot: that is `publishers_linearizable`.
-/

namespace Eggchaos
open Lib

/-- One call: `publish`, or `publish_expected` with its expected generation. -/
structure Request where
  plan : FaultPlan
  seedNamespace : UInt64
  expected : Option Nat

/-- What a call returns; an error of `publish` is the validation error itself. -/
abbrev PublishResult := Except PublishError PublishedPolicy

/-- The conflict a call returns when it finds this generation. -/
def Request.conflict (r : Request) (found : Nat) : Option PolicyConflict :=
  match r.expected with
  | none => none
  | some expected => if found ≠ expected then some ⟨expected, found⟩ else none

/-- The call run alone. -/
def Request.perform (r : Request) (p : LivePolicy) : PublishResult × LivePolicy :=
  match r.expected with
  | none =>
    match p.publish r.plan r.seedNamespace with
    | (.error e, p) => (.error (.invalid e), p)
    | (.ok next, p) => (.ok next, p)
  | some expected => p.publishExpected r.plan r.seedNamespace expected

/-- The calls run alone, one after the other. -/
def replay : LivePolicy → List Request → List PublishResult × LivePolicy
  | p, [] => ([], p)
  | p, r :: rs => ((r.perform p).1 :: (replay (r.perform p).2 rs).1, (replay (r.perform p).2 rs).2)

/-! ## The steps of a call -/

/-- Where a call stands: at the head of its loop, or holding the `Arc` it loaded
and the next policy it built from it. -/
inductive Phase (plan : FaultPlan) where
  | looping (valid : plan.validate = .ok ())
  | based (valid : plan.validate = .ok ()) (base next : Nat)
  | returned

structure Call where
  request : Request
  phase : Phase request.plan

/-- The addresses a call holds. -/
def Call.addresses (c : Call) : List Nat :=
  match c.phase with
  | .based _ base next => [base, next]
  | .looping _ | .returned => []

/-- The policies in memory by address, the pointer the `ArcSwap` holds, and the
calls in progress. `results` and `observed` record what calls returned and which
snapshots were loaded, in order. -/
structure Publishers where
  memory : Nat → PublishedPolicy
  current : Nat
  calls : List Call
  results : List (Request × PublishResult)
  observed : List PublishedPolicy

namespace Publishers

def snapshot (w : Publishers) : PublishedPolicy := w.memory w.current

/-- The addresses that something refers to. -/
def live (w : Publishers) : List Nat := w.current :: w.calls.flatMap Call.addresses

/-- A fresh `LivePolicy` and no call. -/
def start (p : LivePolicy) : Publishers where
  memory := fun _ => p.current
  current := 0
  calls := []
  results := []
  observed := []

/-- Call `i` returns. -/
def finish (w : Publishers) (i : Nat) (r : Request) (result : PublishResult) : Publishers :=
  { w with calls := w.calls.set i ⟨r, .returned⟩, results := w.results ++ [(r, result)] }

inductive Op where
  | begin (request : Request)
  | load (i address : Nat)
  | swap (i : Nat)
  | read

/-- A call starts: an invalid plan is returned at once. -/
def begin (w : Publishers) (r : Request) : Publishers :=
  match h : r.plan.validate with
  | .error e => { w with results := w.results ++ [(r, .error (.invalid e))] }
  | .ok () => { w with calls := w.calls ++ [⟨r, .looping h⟩] }

/-- The loop's first half for call `i`: load the snapshot, return a conflict or
an overflow, or build the next policy at a free address. -/
def loadFor (w : Publishers) (i address : Nat) (r : Request) (valid : r.plan.validate = .ok ()) : Publishers :=
  let w' := { w with observed := w.observed ++ [w.snapshot] }
  match r.conflict w.snapshot.generation with
  | some conflict => w'.finish i r (.error (.conflict conflict))
  | none =>
    match (LivePolicy.mk w.snapshot).swap r.plan r.seedNamespace valid with
    | (.error e, _) => w'.finish i r (.error (.invalid e))
    | (.ok next, _) => { w' with
        memory := fun a => if a = address then next else w.memory a
        calls := w.calls.set i ⟨r, .based valid w.current address⟩ }

/-- The loop's second half: `compare_and_swap` on the pointer. -/
def swapFor (w : Publishers) (i : Nat) (r : Request) (valid : r.plan.validate = .ok ()) (base next : Nat) :
    Publishers :=
  if w.current = base then { w with current := next }.finish i r (.ok (w.memory next))
  else { w with calls := w.calls.set i ⟨r, .looping valid⟩ }

/-- One step of one call, or a reader's load. A step that its call cannot take
and an address that is in use change nothing. -/
def step (w : Publishers) : Op → Publishers
  | .begin r => w.begin r
  | .load i address =>
    match w.calls[i]? with
    | some ⟨r, .looping valid⟩ => if address ∈ w.live then w else w.loadFor i address r valid
    | _ => w
  | .swap i =>
    match w.calls[i]? with
    | some ⟨r, .based valid base next⟩ => w.swapFor i r valid base next
    | _ => w
  | .read => { w with observed := w.observed ++ [w.snapshot] }

/-- The initial policy and every policy that a call reported as published, in
order. -/
def history (p : LivePolicy) (results : List (Request × PublishResult)) : List PublishedPolicy :=
  p.current :: results.filterMap fun r => r.2.toOption

end Publishers

/-! ## One call alone -/

variable {r : Request} {p : LivePolicy}

theorem publishExpected_of_valid {plan : FaultPlan} (valid : plan.validate = .ok ()) (seedNamespace : UInt64)
    (expected : Nat) :
    p.publishExpected plan seedNamespace expected =
      if p.current.generation ≠ expected then (.error (.conflict ⟨expected, p.current.generation⟩), p)
      else match p.swap plan seedNamespace valid with
        | (.error e, p) => (.error (.invalid e), p)
        | (.ok next, p) => (.ok next, p) := by
  unfold LivePolicy.publishExpected
  split
  · next hv => rw [valid] at hv; cases hv
  · rfl

theorem perform_invalid {e : ValidationError} (h : r.plan.validate = .error e) :
    r.perform p = (.error (.invalid e), p) := by
  have hpublish : p.publish r.plan r.seedNamespace = (.error e, p) := by
    unfold LivePolicy.publish
    split
    · next hv => rw [h] at hv; cases hv; rfl
    · next hv => rw [h] at hv; cases hv
  have hexpected : ∀ expected, p.publishExpected r.plan r.seedNamespace expected = (.error (.invalid e), p) := by
    intro expected
    unfold LivePolicy.publishExpected
    split
    · next hv => rw [h] at hv; cases hv; rfl
    · next hv => rw [h] at hv; cases hv
  unfold Request.perform
  split
  · rw [hpublish]
  · exact hexpected _

theorem perform_conflict {c : PolicyConflict} (valid : r.plan.validate = .ok ())
    (h : r.conflict p.current.generation = some c) : r.perform p = (.error (.conflict c), p) := by
  unfold Request.conflict at h
  unfold Request.perform
  split at h
  · cases h
  · split at h
    · next hne =>
      cases h
      rw [publishExpected_of_valid valid, if_pos hne]
    · cases h

/-- Without a conflict a call of a valid plan is the undisturbed swap. -/
theorem perform_swap (valid : r.plan.validate = .ok ()) (h : r.conflict p.current.generation = none) :
    r.perform p = match p.swap r.plan r.seedNamespace valid with
      | (.error e, p) => (.error (.invalid e), p)
      | (.ok next, p) => (.ok next, p) := by
  unfold Request.conflict at h
  unfold Request.perform
  split at h
  · rw [LivePolicy.publish_of_valid valid]
  · split at h
    · cases h
    · next hne => rw [publishExpected_of_valid valid, if_neg hne]

theorem swap_cases (p : LivePolicy) (plan : FaultPlan) (seedNamespace : UInt64) (valid : plan.validate = .ok ()) :
    p.swap plan seedNamespace valid = (.error .generationOverflow, p) ∨
      ∃ next, p.swap plan seedNamespace valid = (.ok next, ⟨next⟩) ∧ next.generation = p.current.generation + 1 ∧
        next.plan = plan ∧ next.seedNamespace = seedNamespace := by
  unfold LivePolicy.swap
  split
  · exact .inl rfl
  · next hgen =>
    have hfits := p.current.fits
    exact .inr ⟨_, rfl, clampU64_of_le (by omega), rfl, rfl⟩

/-- A call alone: an error changes nothing, and a publication is the next
generation of the snapshot it replaces, which an expected one expected. -/
theorem perform_cases (r : Request) (p : LivePolicy) :
    (∃ e, r.perform p = (.error e, p)) ∨
      ∃ next, r.perform p = (.ok next, ⟨next⟩) ∧ next.generation = p.current.generation + 1 ∧
        next.plan = r.plan ∧ next.seedNamespace = r.seedNamespace ∧
        ∀ e, r.expected = some e → p.current.generation = e := by
  cases hv : r.plan.validate with
  | error e => exact .inl ⟨_, perform_invalid hv⟩
  | ok u =>
    cases hc : r.conflict p.current.generation with
    | some c => exact .inl ⟨_, perform_conflict hv hc⟩
    | none =>
      rw [perform_swap hv hc]
      rcases swap_cases p r.plan r.seedNamespace hv with hs | ⟨next, hs, hgen, hplan, hns⟩
      · exact .inl ⟨_, by rw [hs]⟩
      · refine .inr ⟨next, by rw [hs], hgen, hplan, hns, ?_⟩
        intro e he
        simpa [Request.conflict, he] using hc

/-! ## What one step does -/

namespace Publishers

/-- A call with a next policy built it by an undisturbed swap from the policy it
holds, whose generation it expected. -/
def Based (memory : Nat → PublishedPolicy) (c : Call) : Prop :=
  match c.phase with
  | .based valid base next =>
    c.request.conflict (memory base).generation = none ∧
      (LivePolicy.mk (memory base)).swap c.request.plan c.request.seedNamespace valid =
        (.ok (memory next), ⟨memory next⟩)
  | .looping _ | .returned => True

/-- The results so far are those of the calls run alone in this order, which end
in the current snapshot; every call in progress is well based; and only
published policies were observed. -/
structure Linear (p : LivePolicy) (w : Publishers) : Prop where
  replayed : replay p (w.results.map Prod.fst) = (w.results.map Prod.snd, ⟨w.snapshot⟩)
  based : ∀ c ∈ w.calls, Based w.memory c
  observed : ∀ q ∈ w.observed, q ∈ history p w.results

/-- One step: it returns at most one call. An error and an unfinished call leave
the snapshot alone; a publication replaces it by its successor. -/
inductive Effect (w w' : Publishers) : Prop where
  | quiet (results : w'.results = w.results) (snapshot : w'.snapshot = w.snapshot)
  | failed (r : Request) (e : PublishError) (results : w'.results = w.results ++ [(r, .error e)])
      (snapshot : w'.snapshot = w.snapshot) (alone : r.perform ⟨w.snapshot⟩ = (.error e, ⟨w.snapshot⟩))
  | published (r : Request) (next : PublishedPolicy) (results : w'.results = w.results ++ [(r, .ok next)])
      (snapshot : w'.snapshot = next) (alone : r.perform ⟨w.snapshot⟩ = (.ok next, ⟨next⟩))

theorem replay_append (p : LivePolicy) (rs : List Request) (r : Request) :
    replay p (rs ++ [r]) =
      ((replay p rs).1 ++ [(r.perform (replay p rs).2).1], (r.perform (replay p rs).2).2) := by
  induction rs generalizing p with
  | nil => rfl
  | cons r' rs ih => simp only [List.cons_append, replay, ih]

/-- The replay goes on with every step. -/
theorem Effect.replayed {p : LivePolicy} {w w' : Publishers} (h : Effect w w')
    (hr : replay p (w.results.map Prod.fst) = (w.results.map Prod.snd, ⟨w.snapshot⟩)) :
    replay p (w'.results.map Prod.fst) = (w'.results.map Prod.snd, ⟨w'.snapshot⟩) := by
  cases h with
  | quiet hres hsnap => rw [hres, hsnap, hr]
  | failed r e hres hsnap halone =>
    rw [hres, hsnap, List.map_append, List.map_append]
    simp only [List.map_cons, List.map_nil]
    rw [replay_append, hr, halone]
  | published r next hres hsnap halone =>
    rw [hres, hsnap, List.map_append, List.map_append]
    simp only [List.map_cons, List.map_nil]
    rw [replay_append, hr, halone]

theorem Effect.history_sub {p : LivePolicy} {w w' : Publishers} (h : Effect w w') {q : PublishedPolicy}
    (hq : q ∈ history p w.results) : q ∈ history p w'.results := by
  cases h with
  | quiet hres _ => rwa [hres]
  | failed r e hres _ _ =>
    rw [hres]
    simp only [history, List.filterMap_append, ← List.cons_append]
    exact List.mem_append_left _ hq
  | published r next hres _ _ =>
    rw [hres]
    simp only [history, List.filterMap_append, ← List.cons_append]
    exact List.mem_append_left _ hq

/-- The policies a replay publishes have consecutive generations, and the last
one is the snapshot it ends in. -/
theorem replay_chain (p : LivePolicy) (rs : List Request) :
    (p.current :: (replay p rs).1.filterMap Except.toOption).map (·.generation) =
        List.range' p.current.generation ((replay p rs).1.filterMap Except.toOption).length.succ ∧
      (p.current :: (replay p rs).1.filterMap Except.toOption).getLast? = some (replay p rs).2.current := by
  induction rs generalizing p with
  | nil => exact ⟨rfl, rfl⟩
  | cons r rs ih =>
    rcases perform_cases r p with ⟨e, he⟩ | ⟨next, hnext, hgen, -⟩
    · have := ih p
      simp only [replay, he]
      exact this
    · obtain ⟨hgens, hlast⟩ := ih ⟨next⟩
      simp only [replay, hnext]
      change (p.current :: next :: _).map (·.generation) = List.range' p.current.generation (_ + 1).succ ∧
        (p.current :: next :: _).getLast? = _
      refine ⟨?_, by rw [List.getLast?_cons_cons]; exact hlast⟩
      rw [List.map_cons, hgens, hgen]
      rfl

theorem history_eq (p : LivePolicy) (results : List (Request × PublishResult)) :
    history p results = p.current :: (results.map Prod.snd).filterMap Except.toOption := by
  rw [history, List.filterMap_map]
  rfl

variable {p : LivePolicy} {w : Publishers}

theorem Linear.chain (h : Linear p w) :
    (history p w.results).map (·.generation) = List.range' p.current.generation (history p w.results).length ∧
      (history p w.results).getLast? = some w.snapshot := by
  have := replay_chain p (w.results.map Prod.fst)
  rw [h.replayed] at this
  rw [history_eq]
  exact this

theorem Linear.snapshot_mem (h : Linear p w) : w.snapshot ∈ history p w.results :=
  List.mem_of_getLast? h.chain.2

theorem mem_live {c : Call} (hc : c ∈ w.calls) {a : Nat} (ha : a ∈ c.addresses) : a ∈ w.live :=
  List.mem_cons_of_mem _ (List.mem_flatMap.2 ⟨c, hc, ha⟩)

/-- A write to a free address changes nothing a call refers to. -/
theorem Based.write {c : Call} (hc : c ∈ w.calls) (h : Based w.memory c) {address : Nat} (hfree : address ∉ w.live)
    (next : PublishedPolicy) : Based (fun a => if a = address then next else w.memory a) c := by
  obtain ⟨r, phase⟩ := c
  cases phase with
  | looping valid => trivial
  | returned => trivial
  | based valid base next' =>
    have hbase : base ≠ address := by
      rintro rfl
      exact hfree (mem_live hc (by simp [Call.addresses]))
    have hnext : next' ≠ address := by
      rintro rfl
      exact hfree (mem_live hc (by simp [Call.addresses]))
    simp only [Based, if_neg hbase, if_neg hnext] at h ⊢
    exact h

/-- The step replaces call `i` by one that is well based too. -/
theorem based_set {calls : List Call} {memory : Nat → PublishedPolicy} (h : ∀ c ∈ calls, Based memory c) (i : Nat)
    {c : Call} (hc : Based memory c) : ∀ c' ∈ calls.set i c, Based memory c' := by
  intro c' hc'
  rcases List.mem_or_eq_of_mem_set hc' with hc' | rfl
  · exact h c' hc'
  · exact hc

theorem observe_mem (h : Linear p w) {w' : Publishers} (he : Effect w w')
    (ho : w'.observed = w.observed ++ [w.snapshot]) : ∀ q ∈ w'.observed, q ∈ history p w'.results := by
  intro q hq
  rw [ho] at hq
  rcases List.mem_append.1 hq with hq | hq
  · exact he.history_sub (h.observed q hq)
  · rw [List.mem_singleton.1 hq]
    exact he.history_sub h.snapshot_mem

theorem begin_effect (h : Linear p w) (r : Request) : Effect w (w.begin r) ∧ Linear p (w.begin r) := by
  have heffect : Effect w (w.begin r) := by
    unfold begin
    split
    · next e he => exact .failed r _ rfl rfl (perform_invalid he)
    · exact .quiet rfl rfl
  refine ⟨heffect, heffect.replayed h.replayed, ?_, ?_⟩
  · unfold begin
    split
    · exact h.based
    · intro c hc
      rcases List.mem_append.1 hc with hc | hc
      · exact h.based c hc
      · rw [List.mem_singleton.1 hc]
        trivial
  · have ho : (w.begin r).observed = w.observed := by
      unfold begin
      split <;> rfl
    intro q hq
    rw [ho] at hq
    exact heffect.history_sub (h.observed q hq)

theorem loadFor_effect (h : Linear p w) {i address : Nat} {r : Request} (valid : r.plan.validate = .ok ())
    (hfree : address ∉ w.live) :
    Effect w (w.loadFor i address r valid) ∧ Linear p (w.loadFor i address r valid) := by
  have hcurrent : w.current ≠ address := by
    rintro rfl
    exact hfree (by simp [live])
  unfold loadFor
  cases hc : r.conflict w.snapshot.generation with
  | some c =>
    have heffect : Effect w ({ w with observed := w.observed ++ [w.snapshot] }.finish i r (.error (.conflict c))) :=
      .failed r _ rfl rfl (perform_conflict valid hc)
    exact ⟨heffect, heffect.replayed h.replayed, based_set h.based i trivial, observe_mem h heffect rfl⟩
  | none =>
    rcases swap_cases ⟨w.snapshot⟩ r.plan r.seedNamespace valid with hs | ⟨next, hs, -⟩
    · simp only [hs]
      have heffect : Effect w ({ w with observed := w.observed ++ [w.snapshot] }.finish i r
          (.error (.invalid .generationOverflow))) :=
        .failed r _ rfl rfl (by rw [perform_swap (p := ⟨w.snapshot⟩) valid hc, hs])
      exact ⟨heffect, heffect.replayed h.replayed, based_set h.based i trivial, observe_mem h heffect rfl⟩
    · simp only [hs]
      have heffect : Effect w { w with
          memory := fun a => if a = address then next else w.memory a
          calls := w.calls.set i ⟨r, .based valid w.current address⟩
          observed := w.observed ++ [w.snapshot] } :=
        .quiet rfl (by simp only [snapshot, if_neg hcurrent])
      refine ⟨heffect, heffect.replayed h.replayed, ?_, observe_mem h heffect rfl⟩
      refine based_set (fun c hc => (h.based c hc).write hc hfree next) i ?_
      -- What the new call holds is the snapshot it has just loaded.
      simp only [Based, if_neg hcurrent, if_true]
      exact ⟨hc, hs⟩

theorem swapFor_effect (h : Linear p w) {i base next : Nat} {r : Request} (valid : r.plan.validate = .ok ())
    (hi : w.calls[i]? = some ⟨r, .based valid base next⟩) :
    Effect w (w.swapFor i r valid base next) ∧ Linear p (w.swapFor i r valid base next) := by
  obtain ⟨hc, hs⟩ := h.based _ (List.mem_of_getElem? hi)
  unfold swapFor
  split
  · next heq =>
    -- The pointer is the one loaded, and its policy cannot have changed since.
    subst heq
    have heffect : Effect w ({ w with current := next }.finish i r (.ok (w.memory next))) :=
      .published r _ rfl rfl (by rw [snapshot, perform_swap valid hc, hs])
    refine ⟨heffect, heffect.replayed h.replayed, based_set h.based i trivial, ?_⟩
    exact fun q hq => heffect.history_sub (h.observed q hq)
  · have heffect : Effect w { w with calls := w.calls.set i ⟨r, .looping valid⟩ } := .quiet rfl rfl
    refine ⟨heffect, heffect.replayed h.replayed, based_set h.based i trivial, ?_⟩
    exact fun q hq => heffect.history_sub (h.observed q hq)

theorem step_effect (h : Linear p w) (op : Op) : Effect w (w.step op) ∧ Linear p (w.step op) := by
  have hquiet : Effect w w ∧ Linear p w := ⟨.quiet rfl rfl, h⟩
  cases op with
  | begin r => exact begin_effect h r
  | load i address =>
    simp only [step]
    split
    · next r valid _ =>
      split
      · exact hquiet
      · next hfree => exact loadFor_effect h valid hfree
    · exact hquiet
  | swap i =>
    simp only [step]
    split
    · next r valid base next hi => exact swapFor_effect h valid hi
    · exact hquiet
  | read =>
    have heffect : Effect w (w.step .read) := .quiet rfl rfl
    exact ⟨heffect, heffect.replayed h.replayed, h.based, observe_mem h heffect rfl⟩

theorem start_linear (p : LivePolicy) : Linear p (start p) :=
  ⟨rfl, by simp [start], by simp [start]⟩

theorem run_linear (p : LivePolicy) (ops : List Op) : Linear p (run step (start p) ops) :=
  run_inv (Linear p) (fun _ op h => (step_effect h op).2) (start_linear p) ops

end Publishers

open Publishers in
/-- Any number of publishers in any interleaving: the calls returned what they
return when run alone one after the other, and the snapshot is the one that
leaves. So the published policies, in order, have consecutive generations from
one and end in the snapshot, and every snapshot observed is one of them, with
the plan and namespace of its generation. In every state reached the next step
either leaves the snapshot, and with it every call that fails, or publishes the
next generation for one call, from the generation it expected if it had one. -/
theorem publishers_linearizable (plan : FaultPlan) (seedNamespace : UInt64) (valid : plan.validate = .ok ())
    (ops : List Op) :
    let p := LivePolicy.new plan seedNamespace valid
    let w := run step (start p) ops
    replay p (w.results.map Prod.fst) = (w.results.map Prod.snd, ⟨w.snapshot⟩) ∧
      (history p w.results).map (·.generation) = List.range' 1 (history p w.results).length ∧
      (history p w.results).getLast? = some w.snapshot ∧
      (∀ q ∈ w.observed, q ∈ history p w.results ∧
        ∀ q' ∈ history p w.results, q'.generation = q.generation → q' = q) ∧
      ∀ op,
        ((w.step op).snapshot = w.snapshot ∧
            ((w.step op).results = w.results ∨ ∃ r e, (w.step op).results = w.results ++ [(r, .error e)])) ∨
          ∃ r next, (w.step op).results = w.results ++ [(r, .ok next)] ∧ (w.step op).snapshot = next ∧
            next.generation = w.snapshot.generation + 1 ∧ next.plan = r.plan ∧
            next.seedNamespace = r.seedNamespace ∧ ∀ e, r.expected = some e → w.snapshot.generation = e := by
  intro p w
  have h : Linear p w := run_linear p ops
  obtain ⟨hgens, hlast⟩ := h.chain
  refine ⟨h.replayed, hgens, hlast, ?_, ?_⟩
  · intro q hq
    have hmem := h.observed q hq
    refine ⟨hmem, fun q' hq' heq => ?_⟩
    have hnodup : ((history p w.results).map (·.generation)).Nodup := by
      rw [hgens]
      exact List.nodup_range'
    exact List.inj_on_of_nodup_map hnodup hq' hmem heq
  · intro op
    cases (step_effect h op).1 with
    | quiet hres hsnap => exact .inl ⟨hsnap, .inl hres⟩
    | failed r e hres hsnap _ => exact .inl ⟨hsnap, .inr ⟨r, e, hres⟩⟩
    | published r next hres hsnap halone =>
      rcases perform_cases r ⟨w.snapshot⟩ with ⟨e, he⟩ | ⟨next', hnext, hgen, hplan, hns, hexp⟩
      · rw [halone] at he
        cases he
      · rw [halone] at hnext
        cases hnext
        exact .inr ⟨r, next, hres, hsnap, hgen, hplan, hns, hexp⟩

/-- Two publishers load the same snapshot. The first one's swap succeeds, the
second one's fails and it loads again, at the address the first policy had. -/
def race : List Publishers.Op :=
  [.begin ⟨.empty, 8, none⟩, .begin ⟨.empty, 9, none⟩, .load 0 1, .load 1 2, .swap 0, .swap 1, .load 1 0, .swap 1]

open Publishers in
theorem publishers_linearizable_race :
    let p := LivePolicy.new .empty 7 rfl
    let w := run step (start p) race
    w.current = 0 ∧ w.snapshot.seedNamespace = 9 ∧ (history p w.results).map (·.generation) = [1, 2, 3] := by
  refine ⟨by decide, by decide, ?_⟩
  have hlength : (history (LivePolicy.new .empty 7 rfl)
      (run step (start (LivePolicy.new .empty 7 rfl)) race).results).length = 3 := by
    decide
  rw [(publishers_linearizable .empty 7 rfl race).2.1, hlength]
  rfl

end Eggchaos
