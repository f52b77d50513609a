import Mathlib.Data.Multiset.AddSub
import Mathlib.Data.List.Basic
/-!
# Popping what is due from a priority queue

A priority queue is a multiset: how it was built up and how it is laid out do
not show. `Pops` is a loop that takes out a least element while that one is due.
Where ties leave a choice of the least, it may take any.

If the elements can be listed strictly in order there are no ties, and the loop
has one outcome (`pops_iff`).
-/

namespace Eggchaos.Lib

variable {α : Type} {le : α → α → Prop} {due : α → Prop}

/-- `c` is popped before everything in `q`. -/
def Least (le : α → α → Prop) (c : α) (q : Multiset α) : Prop := ∀ d ∈ q, le c d

/-- From a queue the loop takes the list, in order, and leaves the rest. -/
inductive Pops (le : α → α → Prop) (due : α → Prop) : Multiset α → List α → Multiset α → Prop where
  | empty : Pops le due 0 [] 0
  | stop {c : α} {q : Multiset α} (hleast : Least le c q) (hdue : ¬due c) : Pops le due (c ::ₘ q) [] (c ::ₘ q)
  | pop {c : α} {q rest : Multiset α} {out : List α} (hleast : Least le c q) (hdue : due c) (h : Pops le due q out rest) :
    Pops le due (c ::ₘ q) (c :: out) rest

/-- The head of a strictly ordered list is its one least element. -/
theorem Least.eq_head {a c : α} {l : List α} {q : Multiset α} (hleast : Least le c q)
    (hlt : ∀ b ∈ l, ¬le b a) (h : c ::ₘ q = ↑(a :: l)) : c = a ∧ q = ↑l := by
  have hc : c = a := by
    by_contra hne
    have hcl : c ∈ a :: l := Multiset.mem_coe.1 (h ▸ Multiset.mem_cons_self c q)
    have haq : a ∈ c ::ₘ q := h ▸ Multiset.mem_coe.2 List.mem_cons_self
    have hac : a ∈ q := (Multiset.mem_cons.1 haq).resolve_left fun heq => hne heq.symm
    exact hlt c ((List.mem_cons.1 hcl).resolve_left hne) (hleast a hac)
  subst hc
  exact ⟨rfl, (Multiset.cons_inj_right c).1 h⟩

/-- Behind an element that is not due nothing is. -/
theorem filter_not_due [DecidablePred due] {a : α} {l : List α} (hle : ∀ b ∈ l, le a b)
    (hdown : ∀ a b, le a b → due b → due a) (hdue : ¬due a) :
    (a :: l).filter due = [] ∧ (a :: l).filter (fun a => ¬due a) = a :: l := by
  have hnone : ∀ b ∈ a :: l, ¬due b := by
    intro b hb hdueb
    rcases List.mem_cons.1 hb with rfl | hb
    · exact hdue hdueb
    · exact hdue (hdown a b (hle b hb) hdueb)
  exact ⟨List.filter_eq_nil_iff.2 fun b hb => by simpa using hnone b hb,
    List.filter_eq_self.2 fun b hb => by simpa using hnone b hb⟩

/-- Without ties the loop takes exactly what is due, in order. -/
theorem Pops.eq_filter [DecidablePred due] {l : List α} (hsorted : l.Pairwise fun a b => le a b ∧ ¬le b a)
    (hdown : ∀ a b, le a b → due b → due a) {out : List α} {rest : Multiset α} (h : Pops le due l out rest) :
    out = l.filter due ∧ rest = ↑(l.filter fun a => ¬due a) := by
  induction l generalizing out with
  | nil =>
    generalize hq : ((([] : List α) : Multiset α)) = q at h
    cases h with
    | empty => exact ⟨rfl, rfl⟩
    | stop _ _ => exact absurd hq.symm (Multiset.cons_ne_zero)
    | pop _ _ _ => exact absurd hq.symm (Multiset.cons_ne_zero)
  | cons a l ih =>
    obtain ⟨hhead, htail⟩ := List.pairwise_cons.1 hsorted
    have hlt : ∀ b ∈ l, ¬le b a := fun b hb => (hhead b hb).2
    generalize hq : ((a :: l : List α) : Multiset α) = q at h
    cases h with
    | empty => exact absurd (Multiset.cons_coe a l ▸ hq) Multiset.cons_ne_zero
    | @stop c q hleast hdue =>
      obtain ⟨rfl, rfl⟩ := hleast.eq_head hlt hq.symm
      obtain ⟨hnone, hall⟩ := filter_not_due (fun b hb => (hhead b hb).1) hdown hdue
      exact ⟨hnone.symm, by rw [hall]; rfl⟩
    | @pop c q rest out hleast hdue h =>
      obtain ⟨rfl, rfl⟩ := hleast.eq_head hlt hq.symm
      obtain ⟨hout, hrest⟩ := ih htail h
      rw [List.filter_cons_of_pos (by simpa using hdue), List.filter_cons_of_neg (by simpa using hdue), hout]
      exact ⟨rfl, hrest⟩

/-- The loop over an ordered queue: it can end no other way. -/
theorem pops_iff [DecidablePred due] {l : List α} (hsorted : l.Pairwise fun a b => le a b ∧ ¬le b a)
    (hdown : ∀ a b, le a b → due b → due a) {out : List α} {rest : Multiset α} :
    Pops le due l out rest ↔ out = l.filter due ∧ rest = ↑(l.filter fun a => ¬due a) := by
  refine ⟨fun h => h.eq_filter hsorted hdown, ?_⟩
  rintro ⟨rfl, rfl⟩
  induction l with
  | nil => exact .empty
  | cons a l ih =>
    obtain ⟨hhead, htail⟩ := List.pairwise_cons.1 hsorted
    have hleast : Least le a ↑l := fun b hb => (hhead b (Multiset.mem_coe.1 hb)).1
    by_cases hdue : due a
    · rw [List.filter_cons_of_pos (by simpa using hdue), List.filter_cons_of_neg (by simpa using hdue)]
      exact .pop hleast hdue (ih htail)
    · obtain ⟨hnone, hall⟩ := filter_not_due (fun b hb => (hhead b hb).1) hdown hdue
      rw [hnone, hall]
      exact .stop hleast hdue

end Eggchaos.Lib
