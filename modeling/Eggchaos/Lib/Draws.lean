import Mathlib.Data.List.Basic
/-!
# Sequences of draws and positions they select

A generator with a state draws one outcome after another. `stateAt` and
`outcome` are the whole sequence as a function of the position, so code that
draws lazily and remembers what it has drawn can be compared with it.

`sift drop o l` is `l` without the positions that `drop` selects, where the
first element stands at position `o`. It is additive in `l`, so code that works
through a stream piece by piece, at any cuts, computes the same thing.
-/

namespace Eggchaos.Lib

section Draws
variable {S : Type}

/-- The state after `k` draws. -/
def stateAt (draw : S → Bool × S) (s : S) : Nat → S
  | 0 => s
  | k + 1 => (draw (stateAt draw s k)).2

/-- The outcome of draw number `k`. -/
def outcome (draw : S → Bool × S) (s : S) (k : Nat) : Bool := (draw (stateAt draw s k)).1

end Draws

section Sift
variable {α : Type}

/-- `l` without the positions `drop` selects, counted from `o`. -/
def sift (drop : Nat → Bool) (o : Nat) (l : List α) : List α :=
  ((l.zipIdx o).filter fun p => !drop p.2).map (·.1)

@[simp] theorem sift_nil (drop : Nat → Bool) (o : Nat) : sift drop o ([] : List α) = [] := rfl

theorem sift_cons (drop : Nat → Bool) (o : Nat) (x : α) (l : List α) :
    sift drop o (x :: l) = if drop o then sift drop (o + 1) l else x :: sift drop (o + 1) l := by
  cases h : drop o <;> simp [sift, h]

theorem sift_append (drop : Nat → Bool) (o : Nat) (l l' : List α) :
    sift drop o (l ++ l') = sift drop o l ++ sift drop (o + l.length) l' := by
  simp [sift, List.zipIdx_append]

/-- Sifting looks at the selected positions only through their values. -/
theorem sift_const {drop : Nat → Bool} {o : Nat} {l : List α} {b : Bool}
    (h : ∀ i, i < l.length → drop (o + i) = b) : sift drop o l = if b then [] else l := by
  induction l generalizing o with
  | nil => simp
  | cons x l ih =>
    have hx : drop o = b := by simpa using h 0 (by simp)
    have hl := ih (o := o + 1) fun i hi => by
      have := h (i + 1) (by simpa using hi)
      rwa [show o + 1 + i = o + (i + 1) by omega]
    rw [sift_cons, hx, hl]
    cases b <;> simp

theorem sift_length_le (drop : Nat → Bool) (o : Nat) (l : List α) : (sift drop o l).length ≤ l.length := by
  induction l generalizing o with
  | nil => simp
  | cons x l ih =>
    rw [sift_cons]
    have := ih (o + 1)
    split <;> simp only [List.length_cons] <;> omega

/-- A kept element counts. -/
theorem sift_length_lt {drop : Nat → Bool} {o m n : Nat} (l : List α) (hmn : m < n) (hn : n ≤ l.length)
    (hkept : drop (o + m) = false) :
    (sift drop o (l.take m)).length < (sift drop o (l.take n)).length := by
  have hlen : (l.take m).length = m := by rw [List.length_take]; omega
  obtain ⟨x, rest, hdrop⟩ : ∃ x rest, (l.drop m).take (n - m) = x :: rest := by
    apply List.exists_cons_of_length_pos
    rw [List.length_take, List.length_drop]
    omega
  have hsplit : l.take n = l.take m ++ x :: rest := by
    rw [← hdrop, ← List.take_add, Nat.add_sub_cancel' (Nat.le_of_lt hmn)]
  rw [hsplit, sift_append, hlen, sift_cons, hkept, List.length_append]
  simp

end Sift

end Eggchaos.Lib
