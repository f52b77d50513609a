import Eggchaos.Lib.Machine
import Mathlib.Data.Multiset.Count
import Mathlib.Data.Multiset.Range
import Mathlib.Algebra.Order.Group.Multiset
/-!
# Accounts of opened items

Items are opened one after another and closed one by one. While an item is held
it owes a decrement to one shared total and to a counter of its own group, unless
that group is no longer known and the debt was dropped. Counters are machine
words: a decrement at zero wraps round, and is noted.

`Balanced` says that every opened item is held or closed, exactly once, that the
total is the number of held items, and that each known counter is the number of
held items that owe to it. Every step keeps it (`Balanced.step`), so no decrement
ever wraps.
-/

namespace Eggchaos.Lib.Accounts

structure Item where
  id : Nat
  owes : Option Nat
deriving DecidableEq, Repr

/-- `fetch_sub(1)` on a `usize`. -/
def usizePred (n : Nat) : Nat := if n = 0 then u64Max else n - 1

structure Book where
  held : Multiset Item
  closed : Multiset Nat
  opened : Nat
  total : Nat
  counter : Nat → Nat
  /-- The number of counters made so far, and those that are known. -/
  made : Nat
  known : Set Nat
  wrapped : Prop

open Function (update)

/-- The counters after an item is closed. -/
def settle (counter : Nat → Nat) : Option Nat → Nat → Nat
  | none => counter
  | some c => update counter c (usizePred (counter c))

/-- One step of the account. -/
inductive Step : Book → Book → Prop where
  | stay (b : Book) : Step b b
  | enter (b : Book) (c : Nat) (hmade : c < b.made) :
      Step b { b with
        held := ⟨b.opened, some c⟩ ::ₘ b.held
        opened := b.opened + 1
        total := b.total + 1
        counter := update b.counter c (b.counter c + 1) }
  /-- The debt to a counter that is not known any more is dropped. -/
  | drop (b : Book) (id c : Nat) (held : Multiset Item) (hheld : b.held = ⟨id, some c⟩ ::ₘ held) (hknown : c ∉ b.known) :
      Step b { b with held := ⟨id, none⟩ ::ₘ held }
  | close (b : Book) (item : Item) (held : Multiset Item) (hheld : b.held = item ::ₘ held) :
      Step b { b with
        held
        closed := item.id ::ₘ b.closed
        total := usizePred b.total
        counter := settle b.counter item.owes
        wrapped := b.wrapped ∨ b.total = 0 ∨ ∃ c, item.owes = some c ∧ b.counter c = 0 }
  /-- A new counter becomes known. -/
  | make (b : Book) (known : Set Nat) (hknown : ∀ c ∈ known, c ∈ b.known ∨ c = b.made) :
      Step b { b with made := b.made + 1, known }
  | forget (b : Book) (known : Set Nat) (hknown : known ⊆ b.known) : Step b { b with known }

/-- What is held owes to a counter. -/
def owed (held : Multiset Item) (c : Nat) : Nat := held.countP (·.owes = some c)

theorem owed_cons (item : Item) (held : Multiset Item) (c : Nat) :
    owed (item ::ₘ held) c = owed held c + if item.owes = some c then 1 else 0 := by
  unfold owed
  rw [Multiset.countP_cons]

/-- The book adds up. -/
structure Balanced (b : Book) : Prop where
  once : b.held.map (·.id) + b.closed = Multiset.range b.opened
  total : b.total = b.held.card
  covered : ∀ c, owed b.held c ≤ b.counter c
  exact : ∀ c ∈ b.known, b.counter c = owed b.held c
  unmade : ∀ c, b.made ≤ c → b.counter c = 0
  known_made : ∀ c ∈ b.known, c < b.made
  unwrapped : ¬ b.wrapped

namespace Balanced

variable {b : Book}

theorem enter (h : Balanced b) {c : Nat} (hmade : c < b.made) :
    Balanced { b with
      held := ⟨b.opened, some c⟩ ::ₘ b.held
      opened := b.opened + 1
      total := b.total + 1
      counter := update b.counter c (b.counter c + 1) } where
  once := by
    simp only [Multiset.map_cons, Multiset.cons_add, h.once, Multiset.range_succ]
  total := by simp [h.total]
  covered := by
    intro c'
    have := h.covered c'
    rw [owed_cons]
    by_cases hc : c' = c
    · subst hc
      simpa using this
    · simpa [Function.update_of_ne hc, Ne.symm hc] using this
  exact := by
    intro c' hknown
    have := h.exact c' hknown
    rw [owed_cons]
    by_cases hc : c' = c
    · subst hc
      simpa using this
    · simpa [Function.update_of_ne hc, Ne.symm hc] using this
  unmade := by
    intro c' hle
    have hc : c' ≠ c := by
      have : b.made ≤ c' := hle
      omega
    simpa [Function.update_of_ne hc] using h.unmade c' hle
  known_made := h.known_made
  unwrapped := h.unwrapped

theorem drop (h : Balanced b) {id c : Nat} {held : Multiset Item} (hheld : b.held = ⟨id, some c⟩ ::ₘ held)
    (hknown : c ∉ b.known) : Balanced { b with held := ⟨id, none⟩ ::ₘ held } where
  once := by
    have := h.once
    rw [hheld] at this
    simpa using this
  total := by
    have := h.total
    rw [hheld] at this
    simpa using this
  covered := by
    intro c'
    have := h.covered c'
    rw [hheld, owed_cons] at this
    rw [owed_cons]
    simp only [reduceCtorEq, if_false]
    omega
  exact := by
    intro c' hc'
    have := h.exact c' hc'
    have hne : c ≠ c' := fun heq => hknown (heq ▸ hc')
    rw [hheld, owed_cons] at this
    rw [owed_cons]
    simpa [hne] using this
  unmade := h.unmade
  known_made := h.known_made
  unwrapped := h.unwrapped

theorem close (h : Balanced b) {item : Item} {held : Multiset Item} (hheld : b.held = item ::ₘ held) :
    Balanced { b with
      held
      closed := item.id ::ₘ b.closed
      total := usizePred b.total
      counter := settle b.counter item.owes
      wrapped := b.wrapped ∨ b.total = 0 ∨ ∃ c, item.owes = some c ∧ b.counter c = 0 } := by
  have htotal : b.total = held.card + 1 := by
    rw [h.total, hheld, Multiset.card_cons]
  -- the counter of the item covers at least the item itself
  have hcounter : ∀ c, item.owes = some c → owed held c + 1 ≤ b.counter c := by
    intro c hc
    have := h.covered c
    rwa [hheld, owed_cons, if_pos hc] at this
  have hsettle : ∀ c, settle b.counter item.owes c + (if item.owes = some c then 1 else 0) = b.counter c := by
    intro c
    cases howes : item.owes with
    | none => simp [settle]
    | some c' =>
      have := hcounter c' howes
      by_cases hc : c = c'
      · subst hc
        simp only [settle, Function.update_self, usizePred, if_true]
        split <;> omega
      · simp [settle, Function.update_of_ne hc, Ne.symm hc]
  constructor
  case once =>
    have := h.once
    rw [hheld] at this
    simpa using this
  case total => simp [htotal, usizePred]
  case covered =>
    intro c
    have hcov := h.covered c
    have hset := hsettle c
    rw [hheld, owed_cons] at hcov
    dsimp only
    omega
  case exact =>
    intro c hc
    have hex := h.exact c hc
    have hset := hsettle c
    rw [hheld, owed_cons] at hex
    dsimp only
    omega
  case unmade =>
    intro c hle
    have hzero := h.unmade c hle
    have hset := hsettle c
    dsimp only
    omega
  case known_made => exact h.known_made
  case unwrapped =>
    rintro (hwrapped | hzero | ⟨c, hc, hzero⟩)
    · exact h.unwrapped hwrapped
    · omega
    · have := hcounter c hc
      omega

theorem make (h : Balanced b) {known : Set Nat} (hknown : ∀ c ∈ known, c ∈ b.known ∨ c = b.made) :
    Balanced { b with made := b.made + 1, known } where
  once := h.once
  total := h.total
  covered := h.covered
  exact := by
    intro c hc
    rcases hknown c hc with hold | rfl
    · exact h.exact c hold
    · have hzero := h.unmade b.made (Nat.le_refl _)
      have hcov := h.covered b.made
      dsimp only
      omega
  unmade c hle := h.unmade c (Nat.le_of_succ_le hle)
  known_made := by
    intro c hc
    rcases hknown c hc with hold | rfl
    · exact Nat.lt_succ_of_lt (h.known_made c hold)
    · exact Nat.lt_succ_self _
  unwrapped := h.unwrapped

theorem step (h : Balanced b) {b' : Book} (hstep : Step b b') : Balanced b' := by
  cases hstep with
  | stay => exact h
  | enter c hmade => exact h.enter hmade
  | drop id c held hheld hknown => exact h.drop hheld hknown
  | close item held hheld => exact h.close hheld
  | make known hknown => exact h.make hknown
  | forget known hknown =>
    exact ⟨h.once, h.total, h.covered, fun c hc => h.exact c (hknown hc), h.unmade,
      fun c hc => h.known_made c (hknown hc), h.unwrapped⟩

end Balanced

/-! ## Items in lists -/

variable {α β : Type}

/-- An element of a list changes, and with it what the list holds. -/
theorem coe_filterMap_modify (f : α → Option β) (g : α → α) {l : List α} {i : Nat} {a : α} (h : l[i]? = some a) :
    (((l.modify i g).filterMap f : List β) : Multiset β) + ((f a).toList : Multiset β) =
      ((l.filterMap f : List β) : Multiset β) + ((f (g a)).toList : Multiset β) := by
  induction l generalizing i with
  | nil => cases h
  | cons x l ih =>
    have hcons : ∀ y, (((y :: l).filterMap f : List β) : Multiset β) = ((f y).toList : Multiset β) + (l.filterMap f : List β) := by
      intro y
      cases hy : f y <;> simp [hy]
    cases i with
    | zero =>
      cases h
      rw [List.modify_zero_cons, hcons, hcons]
      abel
    | succ i =>
      have hi := ih (i := i) (by simpa using h)
      rw [List.modify_succ_cons, hcons]
      have hcons' : (((x :: l.modify i g).filterMap f : List β) : Multiset β) =
          ((f x).toList : Multiset β) + ((l.modify i g).filterMap f : List β) := by
        cases hx : f x <;> simp [hx]
      rw [hcons', add_assoc, hi, ← add_assoc]

/-- What an element holds does not change with it. -/
theorem filterMap_set_same {f : α → Option β} {l : List α} {i : Nat} {a b : α} (h : l[i]? = some a) (hsame : f b = f a) :
    (l.set i b).filterMap f = l.filterMap f := by
  induction l generalizing i with
  | nil => cases h
  | cons x l ih =>
    cases i with
    | zero =>
      cases h
      rw [List.set_cons_zero, List.filterMap_cons, List.filterMap_cons, hsame]
    | succ i =>
      have hi := ih (i := i) (by simpa using h)
      rw [List.set_cons_succ, List.filterMap_cons, List.filterMap_cons, hi]

/-- An element that held nothing comes to hold something. -/
theorem filterMap_set_perm {f : α → Option β} {l : List α} {i : Nat} {a b : α} {x : β} (h : l[i]? = some a)
    (hold : f a = none) (hnew : f b = some x) : ((l.set i b).filterMap f).Perm (l.filterMap f ++ [x]) := by
  have hmodify := coe_filterMap_modify f (fun _ => b) h
  rw [hold, hnew, ← List.set_eq_modify] at hmodify
  rw [← Multiset.coe_eq_coe, ← Multiset.coe_add]
  simpa using hmodify

/-- An element of a list changes, and with it a count. -/
theorem countP_modify (P : α → Bool) (g : α → α) {l : List α} {i : Nat} {a : α} (h : l[i]? = some a) :
    (l.modify i g).countP P + (if P a then 1 else 0) = l.countP P + if P (g a) then 1 else 0 := by
  induction l generalizing i with
  | nil => cases h
  | cons x l ih =>
    cases i with
    | zero =>
      cases h
      simp only [List.modify_zero_cons, List.countP_cons]
      omega
    | succ i =>
      have hi := ih (i := i) (by simpa using h)
      simp only [List.modify_succ_cons, List.countP_cons]
      omega

/-- A change of one element that no count sees. -/
theorem countP_modify_same {P : α → Bool} {g : α → α} (hg : ∀ a, P (g a) = P a) (l : List α) (i : Nat) :
    (l.modify i g).countP P = l.countP P := by
  induction l generalizing i with
  | nil => cases i <;> rfl
  | cons x l ih =>
    cases i with
    | zero => simp only [List.modify_zero_cons, List.countP_cons, hg]
    | succ i => simp only [List.modify_succ_cons, List.countP_cons, ih]

theorem countP_mapIdx_same {P : α → Bool} {f : Nat → α → α} (hf : ∀ i a, P (f i a) = P a) (l : List α) :
    (l.mapIdx f).countP P = l.countP P := by
  induction l generalizing f with
  | nil => rfl
  | cons x l ih => rw [List.mapIdx_cons, List.countP_cons, List.countP_cons, hf, ih fun i => hf (i + 1)]

/-- The entry of a key is taken out of a list with distinct keys. -/
theorem coe_filter_key {l : List (Nat × β)} (hnodup : (l.map (·.1)).Nodup) {id : Nat} {x : β} (h : (id, x) ∈ l) :
    (l : Multiset (Nat × β)) = (id, x) ::ₘ (l.filter (·.1 ≠ id) : List (Nat × β)) := by
  induction l with
  | nil => cases h
  | cons p l ih =>
    rw [List.map_cons, List.nodup_cons] at hnodup
    rcases List.mem_cons.1 h with rfl | hmem
    · have hrest : l.filter (·.1 ≠ id) = l := by
        refine List.filter_eq_self.2 fun q hq => ?_
        have hne : q.1 ≠ id := by
          rintro rfl
          exact hnodup.1 (List.mem_map_of_mem (f := (·.1)) hq)
        simpa using hne
      rw [List.filter_cons_of_neg (by simp), hrest]
      rfl
    · have hne : p.1 ≠ id := by
        rintro rfl
        exact hnodup.1 (List.mem_map_of_mem (f := (·.1)) hmem)
      rw [List.filter_cons_of_pos (by simpa using hne), ← Multiset.cons_coe, ih hnodup.2 hmem, ← Multiset.cons_coe,
        Multiset.cons_swap]

end Eggchaos.Lib.Accounts
