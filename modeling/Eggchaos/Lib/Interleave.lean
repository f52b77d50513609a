import Eggchaos.Lib.Runs
import Mathlib.Data.List.Basic
/-!
# Programs side by side

Each of some programs is a list of steps on a state they share; a scheduler takes
the next step of any of them at any time. `Interleaved` relates the programs, the
steps that were taken and what of the programs is left. No step is lost or taken
twice (`Interleaved.perm`), so whatever each step adds to a total, the total and
what is left to add always make the same sum. `schedule` gives the programs their
turns in a given order.
-/

namespace Eggchaos.Lib
variable {α σ : Type}

inductive Interleaved : List (List α) → List α → List (List α) → Prop where
  | stop (programs : List (List α)) : Interleaved programs [] programs
  | next {programs left : List (List α)} {taken rest : List α} {i : Nat} {a : α}
      (hnext : programs[i]? = some (a :: rest)) (htail : Interleaved (programs.set i rest) taken left) :
      Interleaved programs (a :: taken) left

/-- The steps of the programs that have these turns, and what of the programs is left.
A program at its end lets its turn go by. -/
def schedule : List Nat → List (List α) → List α × List (List α)
  | [], programs => ([], programs)
  | i :: turns, programs =>
    match programs[i]? with
    | some (a :: rest) =>
      let (taken, left) := schedule turns (programs.set i rest)
      (a :: taken, left)
    | _ => schedule turns programs

namespace Interleaved
variable {programs left : List (List α)} {taken : List α}

theorem flatten_set {i : Nat} {a : α} {rest : List α} (h : programs[i]? = some (a :: rest)) :
    programs.flatten.Perm (a :: (programs.set i rest).flatten) := by
  induction programs generalizing i with
  | nil => simp at h
  | cons program programs ih =>
    cases i with
    | zero =>
      obtain rfl : program = a :: rest := by simpa using h
      simp
    | succ i =>
      rw [List.set_cons_succ, List.flatten_cons, List.flatten_cons]
      exact ((ih (by simpa using h)).append_left program).trans List.perm_middle

/-- The steps taken and the steps left are the steps of the programs. -/
theorem perm (h : Interleaved programs taken left) : programs.flatten.Perm (taken ++ left.flatten) := by
  induction h with
  | stop programs => exact List.Perm.refl _
  | next hnext _ ih => exact (flatten_set hnext).trans (ih.cons _)

/-- Nothing is left if every program has run to its end. -/
theorem perm_of_done (h : Interleaved programs taken left) (hdone : ∀ program ∈ left, program = []) :
    programs.flatten.Perm taken := by
  have hnil : left.flatten = [] := List.flatten_eq_nil_iff.2 hdone
  simpa [hnil] using h.perm

/-- Any turns are a schedule. -/
theorem scheduled (turns : List Nat) (programs : List (List α)) :
    Interleaved programs (schedule turns programs).1 (schedule turns programs).2 := by
  induction turns generalizing programs with
  | nil => exact .stop programs
  | cons i turns ih =>
    unfold schedule
    split
    · next hnext => exact .next hnext (ih _)
    · exact ih programs

end Interleaved
end Eggchaos.Lib
