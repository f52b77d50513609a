import Eggchaos.Lib.Runs
import Mathlib.Algebra.GroupWithZero.Nat
/-!
# Runs without end

A schedule takes one operation after the other and never stops. It is fair to the
operations that it takes again and again. A variant that no step increases comes to
zero along such a schedule, if whenever it is positive one of these operations
decreases it, and goes on to until the variant has decreased (`Fair.reaches_zero`).
-/

namespace Eggchaos.Lib

variable {S O : Type}

/-- The operations of a schedule before its `n`-th. -/
def opsBefore (ops : Nat → O) (n : Nat) : List O := (List.range n).map ops

def Fair (owed : O → Prop) (ops : Nat → O) : Prop := ∀ o, owed o → ∀ n, ∃ m, n ≤ m ∧ ops m = o

variable {step : S → O → S} {s : S}

theorem run_opsBefore_succ (step : S → O → S) (s : S) (ops : Nat → O) (n : Nat) :
    run step s (opsBefore ops (n + 1)) = step (run step s (opsBefore ops n)) (ops n) := by
  rw [opsBefore, List.range_succ, List.map_append, run_append]
  rfl

theorem Fair.reaches_zero {owed : O → Prop} {ops : Nat → O} (hfair : Fair owed ops) {I : S → Prop} {variant : S → Nat}
    (hs : ∀ s o, I s → I (step s o)) (hle : ∀ s o, I s → variant (step s o) ≤ variant s)
    (hlt : ∀ s, I s → 0 < variant s → ∃ o, owed o ∧ variant (step s o) < variant s)
    (hkeep : ∀ s o o', I s → variant (step s o) < variant s → variant (step s o') = variant s →
      variant (step (step s o') o) < variant (step s o'))
    (h : I s) : ∃ n, variant (run step s (opsBefore ops n)) = 0 := by
  have hinv : ∀ n, I (run step s (opsBefore ops n)) := fun n => run_inv I hs h _
  have key : ∀ k n, variant (run step s (opsBefore ops n)) = k → ∃ n, variant (run step s (opsBefore ops n)) = 0 := by
    intro k
    induction k using Nat.strongRecOn with
    | ind k ih =>
      intro n hn
      rcases Nat.eq_zero_or_pos k with rfl | hpos
      · exact ⟨n, hn⟩
      · obtain ⟨o, howed, ho⟩ := hlt _ (hinv n) (hn ▸ hpos)
        -- until the variant has decreased, `o` still decreases it
        have hwait : ∀ d, (∃ j, variant (run step s (opsBefore ops j)) < k) ∨
            (variant (run step s (opsBefore ops (n + d))) = k ∧
              variant (step (run step s (opsBefore ops (n + d))) o) < k) := by
          intro d
          induction d with
          | zero => exact .inr ⟨hn, hn ▸ ho⟩
          | succ d ihd =>
            rcases ihd with hless | ⟨hd, hod⟩
            · exact .inl hless
            · have hnext := hle _ (ops (n + d)) (hinv (n + d))
              rw [← run_opsBefore_succ step s, hd] at hnext
              rcases Nat.lt_or_eq_of_le hnext with hless | heq
              · exact .inl ⟨_, hless⟩
              · refine .inr ⟨heq, ?_⟩
                have hsame := run_opsBefore_succ step s ops (n + d)
                rw [← Nat.add_assoc, hsame]
                rw [hsame] at heq
                exact heq ▸ hkeep _ o _ (hinv _) (hd ▸ hod) (heq.trans hd.symm)
        obtain ⟨m, hm, hop⟩ := hfair o howed n
        obtain ⟨j, hj⟩ : ∃ j, variant (run step s (opsBefore ops j)) < k := by
          rcases hwait (m - n) with hless | ⟨-, hom⟩
          · exact hless
          · refine ⟨m + 1, ?_⟩
            rwa [run_opsBefore_succ, hop, ← Nat.add_sub_cancel' hm]
        exact ih _ hj j rfl
  exact key _ 0 rfl

/-! ## Variants of many parts -/

/-- One part of many decreases. -/
theorem sum_map_set_lt {α : Type} {f : α → Nat} {a b : α} (hlt : f b < f a) {l : List α} {k : Nat}
    (hk : l[k]? = some a) : ((l.set k b).map f).sum < (l.map f).sum := by
  induction l generalizing k with
  | nil => simp at hk
  | cons x l ih =>
    cases k with
    | zero =>
      rw [List.getElem?_cons_zero, Option.some_inj] at hk
      subst hk
      simpa using hlt
    | succ k => simpa using ih (by simpa using hk)

end Eggchaos.Lib
