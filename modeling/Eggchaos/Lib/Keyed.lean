import Mathlib.Data.List.Nodup
/-!
# Lists with distinct keys

A list is `Keyed` if no two of its elements have one key. Around an element of
such a list every other key differs from its own, so looking for the key finds
this element and filtering the key out removes this element alone.
-/

namespace Eggchaos.Lib

/-- No two elements have one key. -/
def Keyed {α κ : Type} (key : α → κ) (l : List α) : Prop := (l.map key).Nodup

namespace Keyed
variable {α κ : Type} {key : α → κ} {l before after : List α} {a b : α}

theorem cons_iff : Keyed key (a :: l) ↔ (∀ b ∈ l, key b ≠ key a) ∧ Keyed key l := by
  unfold Keyed
  rw [List.map_cons, List.nodup_cons]
  simp

theorem append_fresh (h : Keyed key l) (hfresh : ∀ b ∈ l, key b ≠ key a) : Keyed key (l ++ [a]) := by
  unfold Keyed
  rw [List.map_append, List.map_singleton, ← List.concat_eq_append]
  refine List.Nodup.concat ?_ h
  intro hmem
  obtain ⟨b, hb, hkey⟩ := List.mem_map.1 hmem
  exact hfresh b hb hkey

theorem sublist (hsub : before.Sublist l) (h : Keyed key l) : Keyed key before := List.Nodup.sublist (hsub.map key) h

/-- The keys before and behind an element are others. -/
theorem others (h : Keyed key (before ++ a :: after)) : ∀ b ∈ before ++ after, key b ≠ key a := by
  unfold Keyed at h
  rw [List.map_append, List.map_cons, List.nodup_middle, ← List.map_append, List.nodup_cons] at h
  intro b hb hkey
  apply h.1
  rw [← hkey]
  exact List.mem_map_of_mem hb

/-- An element may give way to another of its key. -/
theorem replace (h : Keyed key (before ++ a :: after)) (hkey : key b = key a) : Keyed key (before ++ b :: after) := by
  unfold Keyed at h ⊢
  rw [List.map_append, List.map_cons, hkey, ← List.map_cons, ← List.map_append]
  exact h

end Keyed

section Split
variable {α : Type} {p : α → Bool} {before after : List α} {a : α}

/-- The one element a predicate selects is the one a search finds. -/
theorem findIdx?_split (ha : p a = true) (hbefore : ∀ b ∈ before, p b = false) :
    (before ++ a :: after).findIdx? p = some before.length := by
  induction before with
  | nil => rw [List.nil_append, List.findIdx?_cons, ha, if_pos rfl, List.length_nil]
  | cons b before ih =>
    rw [List.cons_append, List.findIdx?_cons, hbefore b List.mem_cons_self, ih fun c hc =>
      hbefore c (List.mem_cons_of_mem b hc)]
    simp

/-- A filter that drops one element keeps what is before and behind it. -/
theorem filter_split (ha : p a = false) (hothers : ∀ b ∈ before ++ after, p b = true) :
    (before ++ a :: after).filter p = before ++ after := by
  rw [List.filter_append, List.filter_cons_of_neg (by simp [ha]), ← List.filter_append]
  exact List.filter_eq_self.2 hothers

end Split

end Eggchaos.Lib
