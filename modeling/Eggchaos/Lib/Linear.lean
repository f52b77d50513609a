import Mathlib.Data.List.Nodup
/-!
# Linearizations

Operations that take a state to a state and a result when they run alone, and the
calls of a system that runs them interleaved. A history names some of its calls in
an order; it is a linearization (`Linearizes`) if the operations, one after the
other in that order, give the results that these calls have and a state that looks
like the system's. A call that has its effect at one point is appended there
(`Linearizes.extend`).
-/

namespace Eggchaos.Lib

variable {σ ο ρ υ : Type}

/-- The operations one after the other: the last state, and what each results in. -/
def sequential (alone : σ → ο → σ × ρ) : σ → List ο → σ × List ρ
  | s, [] => (s, [])
  | s, o :: os =>
    let rest := sequential alone (alone s o).1 os
    (rest.1, (alone s o).2 :: rest.2)

theorem sequential_concat (alone : σ → ο → σ × ρ) (s : σ) (os : List ο) (o : ο) :
    sequential alone s (os ++ [o]) =
      ((alone (sequential alone s os).1 o).1,
        (sequential alone s os).2 ++ [(alone (sequential alone s os).1 o).2]) := by
  induction os generalizing s with
  | nil => rfl
  | cons o' os ih => simp only [List.cons_append, sequential, ih]

/-- The history has each call that `finished` holds of, once, and explains the
results and what `view` shows of the state. -/
structure Linearizes (alone : σ → ο → σ × ρ) (view : σ → υ) (finished : Nat → ο → ρ → Prop) (first last : σ)
    (history : List (Nat × ο × ρ)) : Prop where
  once : (history.map (·.1)).Nodup
  exactly : ∀ i o r, (i, o, r) ∈ history ↔ finished i o r
  results : (sequential alone first (history.map (·.2.1))).2 = history.map (·.2.2)
  final : view (sequential alone first (history.map (·.2.1))).1 = view last

namespace Linearizes

variable {alone : σ → ο → σ × ρ} {view : σ → υ} {finished finished' : Nat → ο → ρ → Prop} {first last : σ}
  {history : List (Nat × ο × ρ)}

theorem nil (h : ∀ i o r, ¬ finished i o r) : Linearizes alone view finished first first [] where
  once := List.nodup_nil
  exactly i o r := ⟨fun hmem => absurd hmem List.not_mem_nil, fun hfin => absurd hfin (h i o r)⟩
  results := rfl
  final := rfl

theorem congr (h : Linearizes alone view finished first last history)
    (hfinished : ∀ i o r, finished' i o r ↔ finished i o r) : Linearizes alone view finished' first last history where
  once := h.once
  exactly i o r := (h.exactly i o r).trans (hfinished i o r).symm
  results := h.results
  final := h.final

theorem map (h : Linearizes alone id finished first last history) (view : σ → υ) :
    Linearizes alone view finished first last history where
  once := h.once
  exactly := h.exactly
  results := h.results
  final := congrArg view h.final

/-- One more call finishes, with the effect that its operation has alone. -/
theorem extend (h : Linearizes alone id finished first last history) {i : Nat} {o : ο}
    (hfresh : ∀ o' r', ¬ finished i o' r')
    (hfinished : ∀ j o' r', finished' j o' r' ↔ finished j o' r' ∨ (j, o', r') = (i, o, (alone last o).2)) :
    Linearizes alone id finished' first (alone last o).1 (history ++ [(i, o, (alone last o).2)]) := by
  have hlast : (sequential alone first (history.map (·.2.1))).1 = last := h.final
  constructor
  · rw [List.map_append, List.nodup_append]
    refine ⟨h.once, List.nodup_singleton _, ?_⟩
    rintro j hj k hk rfl
    obtain ⟨⟨j', o', r'⟩, hmem, hj'⟩ := List.mem_map.1 hj
    have hi : j' = i := hj'.trans (List.mem_singleton.1 hk)
    subst hi
    exact hfresh o' r' ((h.exactly j' o' r').1 hmem)
  · intro j o' r'
    rw [List.mem_append, List.mem_singleton, h.exactly, hfinished]
  · rw [List.map_append, List.map_cons, List.map_nil, sequential_concat, hlast, h.results, List.map_append]
    rfl
  · rw [List.map_append, List.map_cons, List.map_nil, sequential_concat, hlast]

end Linearizes

end Eggchaos.Lib
