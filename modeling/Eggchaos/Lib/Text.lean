import Mathlib.Data.List.Infix
/-!
# Reading a written text back

A format writes values one after the other. It can be read back if what is
written for a value and whatever follows it determine both the value and the
rest. The lemmas say when: a run of characters of one class ends where the
class ends, a free text ends at the first separator if it holds none, and a
list ends where no item can begin.
-/

namespace Eggchaos.Lib

variable {α β : Type}

/-! ## Runs of one class of characters -/

/-- The text does not begin with a character of the class. -/
def Outside (p : α → Bool) (x : List α) : Prop := ∀ c ∈ x.head?, p c = false

theorem outside_nil (p : α → Bool) : Outside p [] := by simp [Outside]

theorem outside_cons {p : α → Bool} {c : α} (h : p c = false) (x : List α) : Outside p (c :: x) := by
  simpa [Outside] using h

theorem outside_append {p : α → Bool} {s : List α} (h : s.head?.map p = some false) (x : List α) :
    Outside p (s ++ x) := by
  cases s with
  | nil => cases h
  | cons c s => exact outside_cons (by simpa using h) _

/-- Two runs of a class with what follows outside of it. -/
theorem append_inj_of_class {p : α → Bool} {a b x y : List α} (ha : ∀ c ∈ a, p c = true) (hb : ∀ c ∈ b, p c = true)
    (hx : Outside p x) (hy : Outside p y) (h : a ++ x = b ++ y) : a = b ∧ x = y := by
  induction a generalizing b with
  | nil =>
    cases b with
    | nil => exact ⟨rfl, h⟩
    | cons c b =>
      rw [List.nil_append] at h
      subst h
      have hc := hx c (by simp)
      rw [hb c (by simp)] at hc
      cases hc
  | cons c a ih =>
    cases b with
    | nil =>
      rw [List.nil_append] at h
      subst h
      have hc := hy c (by simp)
      rw [ha c (by simp)] at hc
      cases hc
    | cons c' b =>
      simp only [List.cons_append, List.cons.injEq] at h
      obtain ⟨rfl, h⟩ := h
      obtain ⟨rfl, hxy⟩ := ih (fun c hc => ha c (by simp [hc])) (fun c hc => hb c (by simp [hc])) h
      exact ⟨rfl, hxy⟩

/-! ## Free text up to a separator -/

/-- The text begins with one of the separators. -/
def Begins (seps : List (List α)) (x : List α) : Prop := ∃ sep ∈ seps, sep <+: x

/-- None of the separators occurs in the text. -/
def Without (seps : List (List α)) (a : List α) : Prop := ∀ sep ∈ seps, ¬ sep <:+: a

instance [DecidableEq α] (seps : List (List α)) (a : List α) : Decidable (Without seps a) :=
  inferInstanceAs (Decidable (∀ sep ∈ seps, ¬ sep <:+: a))

/-- No separator begins inside another one: a proper end of one and another
one differ at some place that both have. -/
def BorderFree (seps : List (List α)) : Prop :=
  ∀ s ∈ seps, ∀ t ∈ seps, ∀ r ∈ s.tail.tails, r ≠ [] → ¬ r <+: t ∧ ¬ t <+: r

instance [DecidableEq α] (seps : List (List α)) : Decidable (BorderFree seps) :=
  inferInstanceAs (Decidable (∀ s ∈ seps, ∀ t ∈ seps, ∀ r ∈ s.tail.tails, r ≠ [] → ¬ r <+: t ∧ ¬ t <+: r))

/-- A text without separators, then one: no separator begins inside the text. -/
theorem begins_of_append {seps : List (List α)} (hfree : BorderFree seps) {a x : List α} (ha : Without seps a)
    (hx : Begins seps x) (hne : a ≠ []) : ¬ Begins seps (a ++ x) := by
  rintro ⟨s, hs, z, hz⟩
  obtain ⟨t, ht, w, rfl⟩ := hx
  rcases List.append_eq_append_iff.1 hz with ⟨r, rfl, -⟩ | ⟨r, rfl, hr⟩
  · exact ha s hs ⟨[], r, by simp⟩
  · -- The separator goes over the end of the text: what is left of it meets the next one.
    cases r with
    | nil => exact ha a (by simpa using hs) (List.infix_refl a)
    | cons c r =>
      obtain ⟨c', a', rfl⟩ := List.exists_cons_of_ne_nil hne
      have hmem : c :: r ∈ ((c' :: a') ++ c :: r).tail.tails := by
        rw [List.mem_tails]
        exact ⟨a', rfl⟩
      obtain ⟨h1, h2⟩ := hfree _ hs t ht (c :: r) hmem (by simp)
      rcases List.append_eq_append_iff.1 hr with ⟨u, hu, -⟩ | ⟨u, hu, -⟩
      · exact h2 ⟨u, hu.symm⟩
      · exact h1 ⟨u, hu.symm⟩

/-- Two texts without separators, each followed by one. -/
theorem append_inj_of_without {seps : List (List α)} (hfree : BorderFree seps) {a b x y : List α}
    (ha : Without seps a) (hb : Without seps b) (hx : Begins seps x) (hy : Begins seps y) (h : a ++ x = b ++ y) :
    a = b ∧ x = y := by
  have hsub : ∀ {r z w : List α}, (∃ p, Without seps (p ++ r)) → Begins seps w → Begins seps z → z = r ++ w → r = [] := by
    intro r z w hp hw hz hzw
    obtain ⟨p, hp⟩ := hp
    by_contra hne
    refine begins_of_append hfree (fun s hs hin => hp s hs ?_) hw hne (hzw ▸ hz)
    exact hin.trans (List.suffix_append p r).isInfix
  rcases List.append_eq_append_iff.1 h with ⟨r, rfl, hr⟩ | ⟨r, rfl, hr⟩
  · have := hsub ⟨a, hb⟩ hy hx hr
    subst this
    exact ⟨by simp, by simpa using hr⟩
  · have := hsub ⟨b, ha⟩ hx hy hr
    subst this
    exact ⟨by simp, by simpa using hr.symm⟩

/-- The same where the text may also be the last thing. -/
theorem append_inj_of_without_or_end {seps : List (List α)} (hfree : BorderFree seps) {a b x y : List α}
    (ha : Without seps a) (hb : Without seps b) (hx : x = [] ∨ Begins seps x) (hy : y = [] ∨ Begins seps y)
    (h : a ++ x = b ++ y) : a = b ∧ x = y := by
  have hend : ∀ {a b y : List α}, Without seps a → Begins seps y → a ≠ b ++ y := by
    rintro a b y ha ⟨s, hs, z, rfl⟩ rfl
    exact ha s hs ⟨b, z, by simp⟩
  rcases hx with rfl | hx
  · rcases hy with rfl | hy
    · exact ⟨by simpa using h, rfl⟩
    · exact absurd (by simpa using h) (hend ha hy)
  · rcases hy with rfl | hy
    · exact absurd (by simpa using h.symm) (hend hb hx)
    · exact append_inj_of_without hfree ha hb hx hy h

/-! ## Lists -/

/-- A list of items, each of which can be read back, up to a place where no item
begins. -/
theorem flatMap_inj_of_stop {write : β → List α} {ok : β → β → Prop} {stop : List α → Prop}
    (hitem : ∀ a b z w, ok a b → write a ++ z = write b ++ w → (stop z ∨ ∃ a z', z = write a ++ z') →
      (stop w ∨ ∃ b w', w = write b ++ w') → a = b ∧ z = w)
    {as bs : List β} {x y : List α} (hok : ∀ a ∈ as, ∀ b ∈ bs, ok a b) (has : ∀ a ∈ as, ∀ z, ¬ stop (write a ++ z))
    (hbs : ∀ b ∈ bs, ∀ z, ¬ stop (write b ++ z)) (hx : stop x) (hy : stop y)
    (h : as.flatMap write ++ x = bs.flatMap write ++ y) : as = bs ∧ x = y := by
  have hrest : ∀ (l : List β) {z : List α}, stop z →
      stop (l.flatMap write ++ z) ∨ ∃ b z', l.flatMap write ++ z = write b ++ z' := by
    intro l z hz
    cases l with
    | nil => exact .inl (by simpa using hz)
    | cons b l => exact .inr ⟨b, l.flatMap write ++ z, by simp⟩
  induction as generalizing bs with
  | nil =>
    cases bs with
    | nil => exact ⟨rfl, by simpa using h⟩
    | cons b bs =>
      refine absurd ?_ (hbs b (by simp) (bs.flatMap write ++ y))
      simp only [List.flatMap_nil, List.nil_append, List.flatMap_cons, List.append_assoc] at h
      exact h ▸ hx
  | cons a as ih =>
    cases bs with
    | nil =>
      refine absurd ?_ (has a (by simp) (as.flatMap write ++ x))
      simp only [List.flatMap_nil, List.nil_append, List.flatMap_cons, List.append_assoc] at h
      exact h ▸ hy
    | cons b bs =>
      simp only [List.flatMap_cons, List.append_assoc] at h
      obtain ⟨rfl, hr⟩ := hitem a b _ _ (hok a (by simp) b (by simp)) h (hrest as hx) (hrest bs hy)
      obtain ⟨rfl, hxy⟩ := ih (fun a ha b hb => hok a (by simp [ha]) b (by simp [hb]))
        (fun a ha => has a (by simp [ha])) (fun b hb => hbs b (by simp [hb])) hr
      exact ⟨rfl, hxy⟩

/-! ## Numbers -/

theorem toString_digits (n : Nat) : (toString n).toList = Nat.toDigits 10 n := by
  rw [show toString n = n.repr from rfl, Nat.toList_repr]

/-- A number in decimal, followed by something other than a digit. -/
theorem decimal_append_inj {m n : Nat} {x y : List Char} (hx : Outside Char.isDigit x) (hy : Outside Char.isDigit y)
    (h : Nat.toDigits 10 m ++ x = Nat.toDigits 10 n ++ y) : m = n ∧ x = y := by
  have hdigits : ∀ n, ∀ c ∈ Nat.toDigits 10 n, c.isDigit = true := by
    intro n c hc
    exact Nat.isDigit_of_mem_toDigits (by decide) (by decide) hc
  obtain ⟨hd, hxy⟩ := append_inj_of_class (hdigits m) (hdigits n) hx hy h
  refine ⟨?_, hxy⟩
  rw [← Nat.ofDigitChars_ten_toDigits (n := m), hd, Nat.ofDigitChars_ten_toDigits]

end Eggchaos.Lib
