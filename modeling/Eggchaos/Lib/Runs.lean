/-!
# Runs of operations

A component is a state and a step function; a run applies a list of operations
in order. `run_inv` is the invariant rule: what every step keeps holds after
every run. `Along ok` singles out the runs whose steps each meet a condition in
the state they are taken from, and `run_inv_along` is the same rule for them.
Both hold for every prefix of a run too, since a prefix is a run.

Where every step of a machine looks, through `view`, like some steps of another
one, so does every run: the steps of the other machine are `traces`, and
`refines_along` is the rule for the runs whose steps each meet a condition.
-/

namespace Eggchaos.Lib

variable {S O : Type}

/-- The state after the operations, in order. -/
def run (step : S → O → S) (s : S) (ops : List O) : S := ops.foldl step s

/-- Every operation meets `ok` in the state it is taken from. -/
def Along (step : S → O → S) (ok : S → O → Prop) : S → List O → Prop
  | _, [] => True
  | s, o :: os => ok s o ∧ Along step ok (step s o) os

instance Along.decidable {step : S → O → S} {ok : S → O → Prop} [∀ s o, Decidable (ok s o)] :
    ∀ (s : S) (ops : List O), Decidable (Along step ok s ops)
  | _, [] => .isTrue trivial
  | s, o :: os => @instDecidableAnd _ _ _ (Along.decidable (step s o) os)

variable {step : S → O → S} {ok : S → O → Prop}

theorem Along.and_forall {p : O → Prop} {s : S} {ops : List O} (h : Along step ok s ops) (hp : ∀ o ∈ ops, p o) :
    Along step (fun s o => p o ∧ ok s o) s ops := by
  induction ops generalizing s with
  | nil => trivial
  | cons o os ih => exact ⟨⟨hp o (by simp), h.1⟩, ih h.2 fun o' ho' => hp o' (by simp [ho'])⟩

theorem Along.and {ok' : S → O → Prop} {s : S} {ops : List O} (h : Along step ok s ops) (h' : Along step ok' s ops) :
    Along step (fun s o => ok s o ∧ ok' s o) s ops := by
  induction ops generalizing s with
  | nil => trivial
  | cons o os ih => exact ⟨⟨h.1, h'.1⟩, ih h.2 h'.2⟩

@[simp] theorem run_nil (s : S) : run step s [] = s := rfl

@[simp] theorem run_cons (s : S) (o : O) (os : List O) : run step s (o :: os) = run step (step s o) os := rfl

theorem run_append (s : S) (os os' : List O) : run step s (os ++ os') = run step (run step s os) os' := by
  simp [run]

theorem along_append {s : S} {os os' : List O} :
    Along step ok s (os ++ os') ↔ Along step ok s os ∧ Along step ok (run step s os) os' := by
  induction os generalizing s with
  | nil => simp [Along]
  | cons o os ih => simp only [List.cons_append, Along, run_cons, ih, and_assoc]

/-- An invariant that every step keeps holds after every run. -/
theorem run_inv (I : S → Prop) (hs : ∀ s o, I s → I (step s o)) {s : S} (h : I s) (ops : List O) :
    I (run step s ops) := by
  induction ops generalizing s with
  | nil => exact h
  | cons o os ih => exact ih (hs s o h)

/-- An invariant that every step meeting `ok` keeps holds after every run whose
steps all meet it. -/
theorem run_inv_along (I : S → Prop) (hs : ∀ s o, I s → ok s o → I (step s o)) {s : S} (h : I s)
    {ops : List O} (ha : Along step ok s ops) : I (run step s ops) := by
  induction ops generalizing s with
  | nil => exact h
  | cons o os ih => exact ih (hs s o h ha.1) ha.2

/-- Every step meets what an invariant gives. -/
theorem along_of_inv (I : S → Prop) (hs : ∀ s o, I s → I (step s o)) (hok : ∀ s o, I s → ok s o) {s : S} (h : I s)
    (ops : List O) : Along step ok s ops := by
  induction ops generalizing s with
  | nil => trivial
  | cons o os ih => exact ⟨hok s o h, ih (hs s o h)⟩

/-- Where each step keeps `I` exactly when it meets `ok`, the runs that have `I`
all the way are those whose steps all meet `ok`. `J` is an invariant. -/
theorem prefixes_iff_along {I J : S → Prop} (hJ : ∀ s o, J s → J (step s o))
    (hI : ∀ s o, I s → J s → (I (step s o) ↔ ok s o)) {s : S} (h : I s) (hj : J s) (ops : List O) :
    (∀ pre, pre <+: ops → I (run step s pre)) ↔ Along step ok s ops := by
  induction ops generalizing s with
  | nil =>
    refine ⟨fun _ => trivial, fun _ pre hpre => ?_⟩
    rw [List.prefix_nil.1 hpre]
    exact h
  | cons o os ih =>
    constructor
    · intro hall
      have ho : I (step s o) := hall [o] (List.prefix_iff_eq_append.2 rfl)
      refine ⟨(hI s o h hj).1 ho, (ih ho (hJ s o hj)).1 ?_⟩
      intro pre hpre
      exact hall (o :: pre) (List.cons_prefix_cons.2 ⟨rfl, hpre⟩)
    · rintro ⟨hok, hrest⟩ pre hpre
      cases pre with
      | nil => exact h
      | cons o' pre =>
        obtain ⟨rfl, htail⟩ := List.cons_prefix_cons.1 hpre
        exact (ih ((hI s o' h hj).2 hok) (hJ s o' hj)).2 hrest pre htail

/-- A condition holds along a run exactly if it holds before each of its steps. -/
theorem along_iff_prefixes {s : S} {ops : List O} :
    Along step ok s ops ↔ ∀ pre o, pre ++ [o] <+: ops → ok (run step s pre) o := by
  induction ops generalizing s with
  | nil => simp [Along]
  | cons o os ih =>
    constructor
    · rintro ⟨ho, hos⟩ pre o' hpre
      cases pre with
      | nil =>
        obtain ⟨rfl, -⟩ := List.cons_prefix_cons.1 hpre
        exact ho
      | cons o'' pre =>
        obtain ⟨rfl, htail⟩ := List.cons_prefix_cons.1 hpre
        exact ih.1 hos pre o' htail
    · intro hall
      refine ⟨hall [] o (by simp), ih.2 fun pre o' hpre => ?_⟩
      exact hall (o :: pre) o' (List.cons_prefix_cons.2 ⟨rfl, hpre⟩)

/-- Under an invariant that the steps meeting `ok` keep, they meet what it gives for them. -/
theorem Along.imp {ok' : S → O → Prop} (I : S → Prop) (hs : ∀ s o, I s → ok s o → I (step s o))
    (himp : ∀ s o, I s → ok s o → ok' s o) {s : S} (h : I s) {ops : List O} (ha : Along step ok s ops) :
    Along step ok' s ops := by
  induction ops generalizing s with
  | nil => trivial
  | cons o os ih => exact ⟨himp s o h ha.1, ih (hs s o h ha.1) ha.2⟩

/-- Two conditions that agree under an invariant, which the steps that meet them
keep, hold along the same runs. -/
theorem along_congr {ok' : S → O → Prop} (I : S → Prop) (hs : ∀ s o, I s → ok s o → I (step s o))
    (hiff : ∀ s o, I s → (ok' s o ↔ ok s o)) {s : S} (h : I s) (ops : List O) :
    Along step ok' s ops ↔ Along step ok s ops := by
  induction ops generalizing s with
  | nil => exact Iff.rfl
  | cons o os ih =>
    constructor
    · rintro ⟨ho, hos⟩
      have hok := (hiff s o h).1 ho
      exact ⟨hok, (ih (hs s o h hok)).1 hos⟩
    · rintro ⟨hok, hos⟩
      exact ⟨(hiff s o h).2 hok, (ih (hs s o h hok)).2 hos⟩

/-! ## One machine in terms of another -/

variable {A P : Type}

/-- The steps of the other machine for a run, each found from the state it starts in. -/
def traces (step : S → O → S) (trace : S → O → List P) : S → List O → List P
  | _, [] => []
  | s, o :: os => trace s o ++ traces step trace (step s o) os

theorem refines_along {astep : A → P → A} (view : S → A) (trace : S → O → List P) (I : S → Prop)
    (hkeeps : ∀ s o, I s → ok s o → I (step s o))
    (hstep : ∀ s o, I s → ok s o → view (step s o) = run astep (view s) (trace s o)) {s : S} (h : I s) {ops : List O}
    (ha : Along step ok s ops) : view (run step s ops) = run astep (view s) (traces step trace s ops) := by
  induction ops generalizing s with
  | nil => rfl
  | cons o os ih => rw [run_cons, traces, run_append, ← hstep s o h ha.1, ih (hkeeps s o h ha.1) ha.2]

end Eggchaos.Lib
