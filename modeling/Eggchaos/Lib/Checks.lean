import Mathlib.Data.List.Forall2
import Mathlib.Data.List.Nodup
/-!
# Checks that stop at the first error

A check is an `Except`, and checks follow one another until one fails. What passes
them is what passes each: the lemmas say so for a sequence, for a guard, for every
element of a list, and for a list whose elements must not share a key.
-/

namespace Eggchaos.Lib
variable {ε δ α β κ : Type}

theorem bind_ok_iff {x : Except ε α} {f : α → Except ε β} {b : β} :
    x >>= f = .ok b ↔ ∃ a, x = .ok a ∧ f a = .ok b := by
  cases x with
  | error e => simp [bind, Except.bind]
  | ok a => simp [bind, Except.bind]

/-- A check that returns nothing, and what comes after it. -/
theorem then_ok_iff {x : Except ε Unit} {f : Unit → Except ε β} {b : β} :
    x >>= f = .ok b ↔ x = .ok () ∧ f () = .ok b :=
  bind_ok_iff.trans ⟨fun ⟨_, h⟩ => h, fun h => ⟨(), h⟩⟩

theorem mapError_ok_iff {x : Except ε α} {f : ε → δ} {a : α} : x.mapError f = .ok a ↔ x = .ok a := by
  cases x <;> simp [Except.mapError]

theorem refuse_ok_iff {p : Prop} [Decidable p] {e : ε} {x : Except ε α} {a : α} :
    (if p then .error e else x) = .ok a ↔ ¬ p ∧ x = .ok a := by
  by_cases hp : p <;> simp [hp]

/-- The elements of a list, each by its own conversion. -/
theorem mapM_ok_iff {f : α → Except ε β} {l : List α} {l' : List β} :
    l.mapM f = .ok l' ↔ List.Forall₂ (fun a b => f a = .ok b) l l' := by
  induction l generalizing l' with
  | nil => simp [pure, Except.pure, eq_comm]
  | cons a l ih =>
    rw [List.mapM_cons, bind_ok_iff, List.forall₂_cons_left_iff]
    constructor
    · rintro ⟨b, hb, h⟩
      obtain ⟨bs, hbs, h⟩ := bind_ok_iff.1 h
      exact ⟨b, bs, hb, ih.1 hbs, (Except.ok.inj h).symm⟩
    · rintro ⟨b, bs, hb, hbs, rfl⟩
      exact ⟨b, hb, bind_ok_iff.2 ⟨bs, ih.2 hbs, rfl⟩⟩

/-- Every element can be converted. -/
theorem exists_forall₂_iff {f : α → Except ε β} {l : List α} :
    (∃ l', List.Forall₂ (fun a b => f a = .ok b) l l') ↔ ∀ a ∈ l, ∃ b, f a = .ok b := by
  induction l with
  | nil => simp
  | cons a l ih =>
    rw [List.forall_mem_cons, ← ih]
    constructor
    · rintro ⟨_, hall⟩
      cases hall with
      | cons ha hl => exact ⟨⟨_, ha⟩, ⟨_, hl⟩⟩
    · rintro ⟨⟨b, ha⟩, l', hl⟩
      exact ⟨b :: l', .cons ha hl⟩

/-- What a list is related to comes from an element. -/
theorem exists_of_forall₂ {r : α → β → Prop} {l : List α} {l' : List β} (h : List.Forall₂ r l l') :
    ∀ b ∈ l', ∃ a ∈ l, r a b := by
  induction h with
  | nil => simp
  | cons hab _ ih =>
    intro b hb
    rcases List.mem_cons.1 hb with rfl | hb
    · exact ⟨_, List.mem_cons_self, hab⟩
    · obtain ⟨a, ha, h⟩ := ih b hb
      exact ⟨a, .tail _ ha, h⟩

/-- A key that the relation keeps. -/
theorem map_key_of_forall₂ {r : α → β → Prop} {l : List α} {l' : List β} (h : List.Forall₂ r l l') {key : α → κ}
    {key' : β → κ} (hkey : ∀ a b, r a b → key' b = key a) : l'.map key' = l.map key := by
  induction h with
  | nil => rfl
  | cons hab _ ih => rw [List.map_cons, List.map_cons, ih, hkey _ _ hab]

/-- Every element passes its check, and no two have one key. -/
def checkDistinct [DecidableEq κ] (key : α → κ) (duplicate : κ → ε) (check : α → Except ε Unit) :
    List κ → List α → Except ε Unit
  | _, [] => .ok ()
  | seen, a :: l =>
    if key a ∈ seen then .error (duplicate (key a))
    else do
      check a
      checkDistinct key duplicate check (key a :: seen) l

theorem checkDistinct_ok_iff [DecidableEq κ] {key : α → κ} {duplicate : κ → ε} {check : α → Except ε Unit}
    {seen : List κ} {l : List α} :
    checkDistinct key duplicate check seen l = .ok () ↔
      (∀ a ∈ l, key a ∉ seen ∧ check a = .ok ()) ∧ (l.map key).Nodup := by
  induction l generalizing seen with
  | nil => simp [checkDistinct]
  | cons a l ih =>
    rw [checkDistinct, refuse_ok_iff, bind_ok_iff, List.forall_mem_cons, List.map_cons, List.nodup_cons]
    constructor
    · rintro ⟨hnew, _, hcheck, hrest⟩
      obtain ⟨hall, hnodup⟩ := ih.1 hrest
      refine ⟨⟨⟨hnew, hcheck⟩, fun b hb => ⟨fun hseen => (hall b hb).1 (.tail _ hseen), (hall b hb).2⟩⟩, ?_, hnodup⟩
      intro hmem
      obtain ⟨b, hb, hkey⟩ := List.mem_map.1 hmem
      exact (hall b hb).1 (hkey ▸ List.mem_cons_self)
    · rintro ⟨⟨⟨hnew, hcheck⟩, hall⟩, hkey, hnodup⟩
      refine ⟨hnew, (), hcheck, ih.2 ⟨fun b hb => ⟨?_, (hall b hb).2⟩, hnodup⟩⟩
      intro hseen
      rcases List.mem_cons.1 hseen with heq | hseen
      · exact hkey (heq ▸ List.mem_map_of_mem hb)
      · exact (hall b hb).1 hseen

end Eggchaos.Lib
