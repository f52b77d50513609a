import Eggchaos.Capacity
/-!
# Exact capacity

In every run of the capacity machine each counter is the number of leases that
still owe it a decrement, plus, for a proxy, the acquisition that is midway. So
it never passes its limit and never wraps. A lease is released once, and until
then it is in exactly one place: its slot, or the hands of whoever will release
it.
-/

namespace Eggchaos
open Lib Lib.Accounts

namespace CapacityState

open Function (update)

/-! ## The counters -/

/-- Leases that still owe the global counter a decrement. -/
def owed (s : CapacityState) : Nat := s.leases.countP fun l => l.stage = .held ∨ l.stage = .swapped

/-- Leases that still owe the proxy's counter one. -/
def owedOf (s : CapacityState) (p : Nat) : Nat := s.leases.countP fun l => l.proxy = p ∧ l.stage ≠ .released

theorem owed_eq (s : CapacityState) : s.owed = s.unreleased + s.midway := by
  simp only [owed, unreleased, midway]
  induction s.leases with
  | nil => rfl
  | cons l ls ih =>
    simp only [List.countP_cons, ih]
    cases l.stage <;> simp <;> omega

theorem owedOf_eq (s : CapacityState) (p : Nat) : s.owedOf p = s.unreleasedOf p + s.midwayOf p := by
  simp only [owedOf, unreleasedOf, midwayOf]
  induction s.leases with
  | nil => rfl
  | cons l ls ih =>
    simp only [List.countP_cons, ih]
    by_cases hp : l.proxy = p <;> cases l.stage <;> simp [hp] <;> omega

/-- The counters are what is owed, below their limits, and never wrapped. -/
structure Counted (s : CapacityState) : Prop where
  global : s.globalActive = s.owed
  proxy : ∀ p, s.proxyActive p = s.owedOf p + s.taking p
  globalCap : s.globalActive ≤ s.globalLimit
  cap : ∀ p, s.proxyActive p ≤ s.limit p
  capping : ∀ p cap, s.capping p = some cap → s.proxyActive p ≤ cap ∧ s.acquiring p = none
  ingress : s.ingressBufferedBytes = s.reservations.sum
  ingressCap : s.ingressBufferedBytes ≤ s.ingressLimit
  unwrapped : s.wrapped = false

/-- A change of a lease that lowers no counter. -/
structure Keeps (f : CapacityLease → CapacityLease) : Prop where
  proxy : ∀ l, (f l).proxy = l.proxy
  stage : ∀ l, (f l).stage = l.stage ∨ (l.stage = .held ∧ (f l).stage = .swapped)

theorem release_stage (l : CapacityLease) :
    l.release.stage = l.stage ∨ (l.stage = .held ∧ l.release.stage = .swapped) := by
  simp only [CapacityLease.release]
  split
  · next h => exact .inr ⟨h, rfl⟩
  · exact .inl rfl

@[simp] theorem release_proxy (l : CapacityLease) : l.release.proxy = l.proxy := by
  simp only [CapacityLease.release]
  split <;> rfl

@[simp] theorem release_client (l : CapacityLease) : l.release.client = l.client := by
  simp only [CapacityLease.release]
  split <;> rfl

theorem Keeps.owes {f : CapacityLease → CapacityLease} (hf : Keeps f) (l : CapacityLease) :
    (decide ((f l).stage = .held ∨ (f l).stage = .swapped) = decide (l.stage = .held ∨ l.stage = .swapped)) ∧
      ∀ p, decide ((f l).proxy = p ∧ (f l).stage ≠ .released) = decide (l.proxy = p ∧ l.stage ≠ .released) := by
  rw [hf.proxy]
  rcases hf.stage l with h | ⟨h, h'⟩
  · rw [h]
    exact ⟨rfl, fun _ => rfl⟩
  · rw [h, h']
    exact ⟨rfl, fun _ => by simp⟩

/-- A step that moves leases about and touches no counter. -/
structure Moves (s s' : CapacityState) : Prop where
  frame : s' = { s with slots := s'.slots, leases := s'.leases }
  owed : s'.owed = s.owed
  owedOf : ∀ p, s'.owedOf p = s.owedOf p

theorem Moves.refl (s : CapacityState) : s.Moves s := ⟨rfl, rfl, fun _ => rfl⟩

theorem changeLease_moves (s : CapacityState) (r : Nat) {f : CapacityLease → CapacityLease} (hf : Keeps f) :
    s.Moves (s.changeLease r f) where
  frame := rfl
  owed := countP_modify_same (fun l => (hf.owes l).1) s.leases r
  owedOf p := countP_modify_same (fun l => (hf.owes l).2 p) s.leases r

theorem setSlot_moves (s : CapacityState) (p c : Nat) (slot : Option CapacitySlot) : s.Moves (s.setSlot p c slot) :=
  ⟨rfl, rfl, fun _ => rfl⟩

theorem Moves.trans {s s' s'' : CapacityState} (h : s.Moves s') (h' : s'.Moves s'') : s.Moves s'' where
  frame := by
    have hf := h'.frame
    rw [h.frame] at hf
    exact hf
  owed := h'.owed.trans h.owed
  owedOf p := (h'.owedOf p).trans (h.owedOf p)

theorem Counted.moves {s s' : CapacityState} (h : s.Counted) (hm : s.Moves s') : s'.Counted := by
  obtain ⟨hframe, howed, howedOf⟩ := hm
  have htaking : s'.taking = s.taking := by rw [hframe]; rfl
  constructor
  · rw [howed, hframe]; exact h.global
  · intro p
    rw [howedOf, htaking, hframe]
    exact h.proxy p
  · rw [hframe]; exact h.globalCap
  · rw [hframe]; exact h.cap
  · rw [hframe]; exact h.capping
  · rw [hframe]; exact h.ingress
  · rw [hframe]; exact h.ingressCap
  · rw [hframe]; exact h.unwrapped

theorem abandonStarting_moves (s : CapacityState) (l : CapacityLease) (r : Nat) (setup : SetupPhase) :
    s.Moves (s.abandonStarting l r setup) := by
  have hkeeps : Keeps fun l : CapacityLease => { l with terminal := true, setup }.release :=
    ⟨fun l => release_proxy _, fun l => release_stage { l with terminal := true, setup }⟩
  simp only [abandonStarting]
  split
  · exact (setSlot_moves s _ _ _).trans (changeLease_moves _ r hkeeps)
  · exact changeLease_moves s r hkeeps

theorem drainLease_keeps (s : CapacityState) (p r : Nat) : Keeps (s.drainLease p r) := by
  constructor
  · intro l
    simp only [drainLease]
    split
    · split
      · exact release_proxy _
      · split <;> rfl
    · rfl
  · intro l
    simp only [drainLease]
    split
    · split
      · exact release_stage { l with terminal := true }
      · split <;> exact .inl rfl
    · exact .inl rfl

/-- The steps that only move leases about. -/
def OfLeases : CapacityOp → Prop
  | .publish _ | .abandon _ | .joined _ | .dropOwner _ _ | .releaseDropped _ | .drain _ | .remove _ _ | .stop _
  | .dropStop _ | .dropLease _ => True
  | _ => False

theorem step_moves (s : CapacityState) {op : CapacityOp} (h : OfLeases op) : s.Moves (s.step op) := by
  have hrelease : ∀ g : CapacityLease → CapacityLease, (∀ l, (g l).proxy = l.proxy ∧ (g l).stage = l.stage) →
      Keeps fun l => (g l).release := by
    intro g hg
    refine ⟨fun l => (release_proxy _).trans (hg l).1, fun l => ?_⟩
    rw [← (hg l).2]
    exact release_stage (g l)
  have hplain : ∀ g : CapacityLease → CapacityLease, (∀ l, (g l).proxy = l.proxy ∧ (g l).stage = l.stage) → Keeps g :=
    fun g hg => ⟨fun l => (hg l).1, fun l => .inl (hg l).2⟩
  cases op with
  | publish r =>
    simp only [step, onLease]
    split
    · split
      · split
        · exact (setSlot_moves s _ _ _).trans (changeLease_moves _ r (hplain _ fun l => ⟨rfl, rfl⟩))
        · exact changeLease_moves s r (hplain _ fun l => ⟨rfl, rfl⟩)
      · exact .refl s
    · exact .refl s
  | abandon r =>
    simp only [step, onLease]
    split
    · split
      · split
        · exact abandonStarting_moves s _ r _
        · exact abandonStarting_moves s _ r _
        · exact .refl s
      · exact .refl s
    · exact .refl s
  | joined r =>
    simp only [step, onLease]
    split
    · split
      · exact changeLease_moves s r (hplain _ fun l => ⟨rfl, rfl⟩)
      · exact .refl s
    · exact .refl s
  | dropOwner r free =>
    simp only [step, onLease]
    split
    · split
      all_goals first
        | exact .refl s
        | split
          · split
            · exact abandonStarting_moves s _ r _
            · exact .refl s
          · exact changeLease_moves s r (hplain _ fun l => ⟨rfl, rfl⟩)
    · exact .refl s
  | releaseDropped r | stop r | dropLease r =>
    simp only [step, onLease]
    split
    · split
      · exact changeLease_moves s r (hrelease _ fun l => ⟨rfl, rfl⟩)
      · exact .refl s
    · exact .refl s
  | dropStop r =>
    simp only [step, onLease]
    split
    · split
      · exact changeLease_moves s r (hplain _ fun l => ⟨rfl, rfl⟩)
      · exact .refl s
    · exact .refl s
  | drain p =>
    simp only [step]
    split
    · exact ⟨rfl, countP_mapIdx_same (fun r l => ((drainLease_keeps s p r).owes l).1) s.leases,
        fun q => countP_mapIdx_same (fun r l => ((drainLease_keeps s p r).owes l).2 q) s.leases⟩
    · exact .refl s
  | remove p c =>
    simp only [step]
    split
    · split
      · exact (setSlot_moves s _ _ _).trans (changeLease_moves _ _ (hplain _ fun l => ⟨rfl, rfl⟩))
      · exact .refl s
    · exact .refl s
  | _ => exact absurd h (by exact id)

section

variable {s : CapacityState}

theorem usizeSub_of_le {n k : Nat} (h : k ≤ n) : usizeSub n k = n - k := if_pos h

theorem taking_some {p : Nat} {phase : Acquiring} (h : s.acquiring p = some phase) : s.taking p = 1 := by
  simp [taking, h]

theorem taking_none {p : Nat} (h : s.acquiring p = none) : s.taking p = 0 := by
  simp [taking, h]

theorem resolve_counted (h : s.Counted) (p c : Nat) : (s.resolve p c).Counted := by
  simp only [resolve]
  split
  · exact h
  · split
    · exact h.moves (setSlot_moves s p c none)
    · exact h
  · split
    · next hguard =>
      simp only [free, Bool.and_eq_true, Option.isNone_iff_eq_none, decide_eq_true_eq] at hguard
      obtain ⟨⟨hfree, hcapping⟩, hroom⟩ := hguard
      have htaking := taking_none hfree
      refine { h with proxy := ?_, cap := ?_, capping := ?_ }
      · intro q
        have hq := h.proxy q
        change update s.proxyActive p (s.proxyActive p + 1) q = s.owedOf q + _
        by_cases hqp : q = p
        · subst hqp
          simp only [taking, Function.update_self, Option.isSome_some, if_true]
          omega
        · simp only [taking, Function.update_of_ne hqp] at hq ⊢
          exact hq
      · intro q
        by_cases hqp : q = p
        · subst hqp
          simpa only [Function.update_self] using hroom
        · simpa only [Function.update_of_ne hqp] using h.cap q
      · intro q cap hq
        by_cases hqp : q = p
        · subst hqp
          change s.capping q = some cap at hq
          rw [hcapping] at hq
          cases hq
        · simpa only [Function.update_of_ne hqp] using h.capping q cap hq
    · exact h

/-- A cap is read while no call takes at its proxy. -/
theorem Counted.capping_idle (h : s.Counted) {p q cap : Nat} {a : Acquiring} (hacq : s.acquiring p = some a)
    (hq : s.capping q = some cap) : q ≠ p := by
  rintro rfl
  rw [(h.capping q cap hq).2] at hacq
  cases hacq

theorem acquireGlobal_counted (h : s.Counted) (p : Nat) : (s.acquireGlobal p).Counted := by
  simp only [acquireGlobal]
  split
  · next c hacq =>
    have htaking := taking_some hacq
    split
    · next hroom =>
      refine { h with global := ?_, proxy := ?_, globalCap := hroom, capping := ?_ }
      · simp only [owed, List.countP_append]
        have := h.global
        simp only [owed] at this
        simp [this]
      · intro q
        have hq := h.proxy q
        simp only [owedOf, List.countP_append, taking, Function.update_apply] at hq ⊢
        by_cases hqp : q = p
        · subst hqp
          simp [hacq] at hq ⊢
          omega
        · simp [hqp, Ne.symm hqp] at hq ⊢
          exact hq
      · intro q cap hq
        have hqp := h.capping_idle hacq hq
        simpa only [Function.update_of_ne hqp] using h.capping q cap hq
    · refine { h with proxy := ?_, capping := ?_ }
      · intro q
        have hq := h.proxy q
        simp only [owedOf, taking, Function.update_apply] at hq ⊢
        by_cases hqp : q = p
        · subst hqp
          simp [hacq] at hq ⊢
          omega
        · simpa [hqp] using hq
      · intro q cap hq
        have hqp := h.capping_idle hacq hq
        simpa only [Function.update_of_ne hqp] using h.capping q cap hq
  · exact h

theorem takeBack_counted (h : s.Counted) (p : Nat) : (s.takeBack p).Counted := by
  simp only [takeBack]
  split
  · next c hacq =>
    have htaking := taking_some hacq
    have hp := h.proxy p
    have hsub : usizeSub (s.proxyActive p) 1 = s.owedOf p := by
      rw [usizeSub_of_le (by omega)]
      omega
    refine { h with proxy := ?_, cap := ?_, capping := ?_, unwrapped := ?_ }
    · intro q
      have hq := h.proxy q
      simp only [owedOf, taking, Function.update_apply] at hq ⊢
      by_cases hqp : q = p
      · subst hqp
        simpa [owedOf] using hsub
      · simpa [hqp] using hq
    · intro q
      have hcap := h.cap q
      by_cases hqp : q = p
      · subst hqp
        simp only [Function.update_self, hsub]
        omega
      · simpa only [Function.update_of_ne hqp] using hcap
    · intro q cap hq
      have hqp := h.capping_idle hacq hq
      simpa only [Function.update_of_ne hqp] using h.capping q cap hq
    · have hpos : ¬ s.proxyActive p < 1 := by omega
      simp [h.unwrapped, hpos]
  · exact h

theorem subGlobal_counted (h : s.Counted) (r : Nat) : (s.step (.subGlobal r)).Counted := by
  simp only [step, onLease]
  split
  · next l hl =>
    split
    · next hstage =>
      have hcount := countP_modify (fun l : CapacityLease => decide (l.stage = .held ∨ l.stage = .swapped))
        (fun l => { l with stage := .globalReleased }) hl
      simp only [hstage, reduceCtorEq, or_true, decide_true, if_true, or_self, decide_false, Bool.false_eq_true, if_false]
        at hcount
      have hglobal := h.global
      simp only [owed] at hglobal
      have hpos : 1 ≤ s.globalActive := by omega
      have howedOf : ∀ p, (s.changeLease r fun l => { l with stage := .globalReleased }).owedOf p = s.owedOf p := by
        intro p
        have hcount' := countP_modify (fun l : CapacityLease => decide (l.proxy = p ∧ l.stage ≠ .released))
          (fun l => { l with stage := .globalReleased }) hl
        simp only [hstage] at hcount'
        simp only [owedOf, changeLease]
        simpa using hcount'
      refine ⟨?_, ?_, ?_, h.cap, h.capping, h.ingress, h.ingressCap, ?_⟩
      · simp only [usizeSub_of_le hpos, owed, changeLease]
        omega
      · intro p
        exact (h.proxy p).trans (by rw [← howedOf p]; rfl)
      · simp only [usizeSub_of_le hpos]
        exact (Nat.sub_le _ _).trans h.globalCap
      · have : ¬ s.globalActive < 1 := by omega
        simp [h.unwrapped, this]
    · exact h
  · exact h

theorem subProxy_counted (h : s.Counted) (r : Nat) : (s.step (.subProxy r)).Counted := by
  simp only [step, onLease]
  split
  · next l hl =>
    split
    · next hstage =>
      have hcount : ∀ p, (s.changeLease r fun l => { l with stage := .released }).owedOf p + (if l.proxy = p then 1 else 0) =
          s.owedOf p := by
        intro p
        have hcount' := countP_modify (fun l : CapacityLease => decide (l.proxy = p ∧ l.stage ≠ .released))
          (fun l => { l with stage := .released }) hl
        simp only [hstage] at hcount'
        simp only [owedOf, changeLease]
        simpa using hcount'
      have howed : (s.changeLease r fun l => { l with stage := .released }).owed = s.owed := by
        have hcount' := countP_modify (fun l : CapacityLease => decide (l.stage = .held ∨ l.stage = .swapped))
          (fun l => { l with stage := .released }) hl
        simp only [hstage] at hcount'
        simp only [owed, changeLease]
        simpa using hcount'
      have hmine := hcount l.proxy
      rw [if_pos rfl] at hmine
      have hp := h.proxy l.proxy
      have hpos : 1 ≤ s.proxyActive l.proxy := by omega
      refine ⟨h.global.trans howed.symm, ?_, h.globalCap, ?_, ?_, h.ingress, h.ingressCap, ?_⟩
      · intro p
        have hq := h.proxy p
        have hc := hcount p
        change update s.proxyActive l.proxy _ p = (s.changeLease r fun l => { l with stage := .released }).owedOf p + s.taking p
        by_cases hpl : p = l.proxy
        · subst hpl
          rw [Function.update_self, usizeSub_of_le hpos]
          omega
        · rw [Function.update_of_ne hpl]
          rw [if_neg (Ne.symm hpl)] at hc
          omega
      · intro p
        by_cases hpl : p = l.proxy
        · subst hpl
          simp only [Function.update_self, usizeSub_of_le hpos]
          exact (Nat.sub_le _ _).trans (h.cap _)
        · simp only [Function.update_of_ne hpl]
          exact h.cap p
      · intro p cap hcap
        obtain ⟨hle, hfree⟩ := h.capping p cap hcap
        refine ⟨?_, hfree⟩
        by_cases hpl : p = l.proxy
        · subst hpl
          simp only [Function.update_self, usizeSub_of_le hpos]
          exact (Nat.sub_le _ _).trans hle
        · simpa only [Function.update_of_ne hpl] using hle
      · have : ¬ s.proxyActive l.proxy < 1 := by omega
        simp [h.unwrapped, this]
    · exact h
  · exact h

theorem step_counted (s : CapacityState) (op : CapacityOp) (h : s.Counted) : (s.step op).Counted := by
  cases op with
  | publish | abandon | joined | dropOwner | releaseDropped | drain | remove | stop | dropStop | dropLease =>
    exact h.moves (step_moves s trivial)
  | resolve p c => exact resolve_counted h p c
  | acquireGlobal p => exact acquireGlobal_counted h p
  | takeBack p => exact takeBack_counted h p
  | subGlobal r => exact subGlobal_counted h r
  | subProxy r => exact subProxy_counted h r
  | lower p cap =>
    simp only [step]
    split
    · next hguard =>
      simp only [free, Bool.and_eq_true, Option.isNone_iff_eq_none, decide_eq_true_eq] at hguard
      refine { h with capping := ?_ }
      intro q cap' hq
      by_cases hqp : q = p
      · subst hqp
        simp only [Function.update_self, Option.some.injEq] at hq
        subst hq
        exact ⟨hguard.2, hguard.1.1⟩
      · simp only [Function.update_of_ne hqp] at hq
        exact h.capping q cap' hq
    · exact h
  | write p =>
    simp only [step]
    split
    · next cap hcap =>
      refine { h with cap := ?_, capping := ?_ }
      · intro q
        by_cases hqp : q = p
        · subst hqp
          simpa only [Function.update_self] using (h.capping q cap hcap).1
        · simpa only [Function.update_of_ne hqp] using h.cap q
      · intro q cap' hq
        by_cases hqp : q = p
        · subst hqp
          simp at hq
        · simp only [Function.update_of_ne hqp] at hq
          exact h.capping q cap' hq
    · exact h
  | reserve bytes =>
    simp only [step]
    split
    · next hroom =>
      refine { h with ingress := ?_, ingressCap := hroom }
      simp [h.ingress]
    · exact h
  | dropReservation i =>
    simp only [step]
    split
    · next bytes hi =>
      obtain ⟨hlt, hget⟩ := List.getElem?_eq_some_iff.1 hi
      have hsum : bytes + (s.reservations.eraseIdx i).sum = s.reservations.sum := by
        rw [← hget, ← List.sum_cons]
        exact (List.getElem_cons_eraseIdx_perm hlt).sum_eq
      have hle : bytes ≤ s.ingressBufferedBytes := by
        rw [h.ingress]
        omega
      refine { h with ingress := ?_, ingressCap := ?_, unwrapped := ?_ }
      · simp only [usizeSub_of_le hle]
        rw [h.ingress]
        omega
      · simp only [usizeSub_of_le hle]
        exact (Nat.sub_le _ _).trans h.ingressCap
      · simp [h.unwrapped, Nat.not_lt.2 hle]
    · exact h

end

/-! ## Where a lease is -/

/-- A slot as one lease sees it. -/
inductive SlotView where
  | absent
  | starting
  | active

def view (slot : Option CapacitySlot) (r : Nat) : SlotView :=
  match slot with
  | some (.starting r') => if r' = r then .starting else .absent
  | some (.active r') => if r' = r then .active else .absent
  | none => .absent

/-- What may be true of a lease by what its slot shows. In a slot it is unreleased,
unless its reservation is terminal; out of it somebody else will release it. -/
def LeaseOk (l : CapacityLease) : SlotView → Prop
  | .active => l.stage = .held ∧ l.setup = .over ∧ l.ending = .none
  | .starting => l.ending = .none ∧
      ((l.setup = .binding ∧ l.terminal = false ∧ l.stage = .held) ∨ (l.setup = .dropping ∧ l.terminal = true) ∨
        (l.setup = .over ∧ l.terminal = true ∧ l.stage ≠ .held))
  | .absent => l.stage = .held → l.setup = .dropping ∨ l.ending ≠ .none

/-- The slots refer to leases of their own, and every lease is as its slot shows. -/
structure Placed (s : CapacityState) : Prop where
  known : ∀ p c r, view (s.slots p c) r ≠ .absent → ∃ l, s.leases[r]? = some l ∧ l.proxy = p ∧ l.client = c
  each : ∀ (r : Nat) (l : CapacityLease), s.leases[r]? = some l → LeaseOk l (view (s.slots l.proxy l.client) r)
  once : ∀ (r : Nat) (l : CapacityLease), s.leases[r]? = some l → l.releases = if l.stage = .held then 0 else 1
  vacant : ∀ p c, s.acquiring p = some (.proxyTaken c) → s.slots p c = none

section

variable {s s' : CapacityState} {r : Nat} {l : CapacityLease}

theorem release_not_held (l : CapacityLease) : l.release.stage ≠ .held := by
  simp only [CapacityLease.release]
  split
  · nofun
  · next h => exact h

theorem release_once (h : l.releases = if l.stage = .held then 0 else 1) :
    l.release.releases = if l.release.stage = .held then 0 else 1 := by
  rw [if_neg (release_not_held l)]
  simp only [CapacityLease.release]
  split
  · next hheld => simp [h, hheld]
  · next hheld => simpa [hheld] using h

/-- A slot that shows one lease shows no other. -/
theorem view_unique {slot : Option CapacitySlot} {r r' : Nat} (h : view slot r ≠ .absent) (hne : r' ≠ r) :
    view slot r' = .absent := by
  cases slot with
  | none => rfl
  | some slot =>
    cases slot with
    | starting r'' =>
      simp only [view] at h ⊢
      split at h
      · next heq => exact if_neg fun h' => hne (h'.symm.trans heq)
      · exact absurd rfl h
    | active r'' =>
      simp only [view] at h ⊢
      split at h
      · next heq => exact if_neg fun h' => hne (h'.symm.trans heq)
      · exact absurd rfl h

/-- The leases after one has changed. -/
theorem modify_some {ls : List CapacityLease} {f : CapacityLease → CapacityLease} (hl : ls[r]? = some l) {r' : Nat}
    {l' : CapacityLease} (h : (ls.modify r f)[r']? = some l') : (r' = r ∧ l' = f l) ∨ (r' ≠ r ∧ ls[r']? = some l') := by
  by_cases hr : r' = r
  · subst hr
    rw [List.getElem?_modify_eq, hl] at h
    exact .inl ⟨rfl, (Option.some.inj h).symm⟩
  · rw [List.getElem?_modify_ne _ _ (Ne.symm hr)] at h
    exact .inr ⟨hr, h⟩

theorem modify_of_some {ls : List CapacityLease} {f : CapacityLease → CapacityLease} (hl : ls[r]? = some l) {r' : Nat}
    {l' : CapacityLease} (hl' : ls[r']? = some l') : (ls.modify r f)[r']? = some (if r' = r then f l else l') := by
  split
  · next hr =>
    subst hr
    rw [List.getElem?_modify_eq, hl]
    rfl
  · next hr =>
    rw [List.getElem?_modify_ne _ _ (Ne.symm hr), hl']

/-- A step that changes one lease and no slot. -/
theorem Placed.lease (h : s.Placed) (hl : s.leases[r]? = some l) {f : CapacityLease → CapacityLease}
    (hproxy : (f l).proxy = l.proxy) (hclient : (f l).client = l.client)
    (hok : ∀ v, LeaseOk l v → v = view (s.slots l.proxy l.client) r → LeaseOk (f l) v)
    (honce : (f l).releases = if (f l).stage = .held then 0 else 1) : (s.changeLease r f).Placed where
  known p c r' hv := by
    obtain ⟨l', hl', hp, hc⟩ := h.known p c r' hv
    refine ⟨_, modify_of_some hl hl', ?_⟩
    split
    · next hr =>
      subst hr
      cases hl.symm.trans hl'
      exact ⟨hproxy.trans hp, hclient.trans hc⟩
    · exact ⟨hp, hc⟩
  each r' l' hl' := by
    rcases modify_some hl hl' with ⟨rfl, rfl⟩ | ⟨-, hl'⟩
    · rw [hproxy, hclient]
      exact hok _ (h.each _ _ hl) rfl
    · exact h.each r' l' hl'
  once r' l' hl' := by
    rcases modify_some hl hl' with ⟨rfl, rfl⟩ | ⟨-, hl'⟩
    · exact honce
    · exact h.once r' l' hl'
  vacant := h.vacant

/-- A lease leaves its slot, or its slot goes on with it. -/
theorem Placed.slot (h : s.Placed) (hl : s.leases[r]? = some l) (hshown : view (s.slots l.proxy l.client) r ≠ .absent)
    {slot : Option CapacitySlot} (hslot : slot = none ∨ slot = some (.active r)) {f : CapacityLease → CapacityLease}
    (hproxy : (f l).proxy = l.proxy) (hclient : (f l).client = l.client) (hok : LeaseOk (f l) (view slot r))
    (honce : (f l).releases = if (f l).stage = .held then 0 else 1) :
    ((s.setSlot l.proxy l.client slot).changeLease r f).Placed := by
  have hothers : ∀ r', r' ≠ r → view slot r' = .absent := by
    intro r' hr
    rcases hslot with rfl | rfl
    · rfl
    · exact if_neg (Ne.symm hr)
  have hslots : ∀ p c, (s.setSlot l.proxy l.client slot).slots p c =
      if p = l.proxy ∧ c = l.client then slot else s.slots p c := by
    intro p c
    simp only [setSlot, Function.update_apply]
    by_cases hp : p = l.proxy
    · subst hp
      by_cases hc : c = l.client <;> simp [hc]
    · simp [hp]
  have hviews : ∀ p c r', r' ≠ r → view ((s.setSlot l.proxy l.client slot).slots p c) r' = view (s.slots p c) r' := by
    intro p c r' hr
    rw [hslots]
    split
    · next hpc =>
      rw [hpc.1, hpc.2, hothers r' hr, view_unique hshown hr]
    · rfl
  constructor
  · intro p c r' hv
    change view ((s.setSlot l.proxy l.client slot).slots p c) r' ≠ .absent at hv
    have hfound : ∃ l', s.leases[r']? = some l' ∧ l'.proxy = p ∧ l'.client = c := by
      by_cases hr : r' = r
      · subst hr
        by_cases hpc : p = l.proxy ∧ c = l.client
        · exact ⟨l, hl, hpc.1.symm, hpc.2.symm⟩
        · rw [hslots, if_neg hpc] at hv
          exact h.known p c r' hv
      · rw [hviews p c r' hr] at hv
        exact h.known p c r' hv
    obtain ⟨l', hl', hp, hc⟩ := hfound
    refine ⟨_, modify_of_some hl hl', ?_⟩
    split
    · next hr =>
      subst hr
      cases hl.symm.trans hl'
      exact ⟨hproxy.trans hp, hclient.trans hc⟩
    · exact ⟨hp, hc⟩
  · intro r' l' hl'
    change LeaseOk l' (view ((s.setSlot l.proxy l.client slot).slots l'.proxy l'.client) r')
    rcases modify_some hl hl' with ⟨rfl, rfl⟩ | ⟨hr, hl'⟩
    · rw [hproxy, hclient, hslots, if_pos ⟨rfl, rfl⟩]
      exact hok
    · rw [hviews _ _ r' hr]
      exact h.each r' l' hl'
  · intro r' l' hl'
    rcases modify_some hl hl' with ⟨rfl, rfl⟩ | ⟨-, hl'⟩
    · exact honce
    · exact h.once r' l' hl'
  · intro p c hacq
    change (s.setSlot l.proxy l.client slot).slots p c = none
    have hnone := h.vacant p c hacq
    rw [hslots]
    split
    · next hpc =>
      rw [← hpc.1, ← hpc.2, hnone] at hshown
      exact absurd rfl hshown
    · exact hnone

theorem Placed.congr (h : s.Placed) (hslots : s'.slots = s.slots) (hleases : s'.leases = s.leases)
    (hacquiring : ∀ p c, s'.acquiring p = some (.proxyTaken c) → s.acquiring p = some (.proxyTaken c)) : s'.Placed where
  known := by rw [hslots, hleases]; exact h.known
  each := by rw [hslots, hleases]; exact h.each
  once := by rw [hleases]; exact h.once
  vacant p c hacq := by rw [hslots]; exact h.vacant p c (hacquiring p c hacq)

/-- A call that does not go on to take globally leaves the others as they are. -/
theorem taken_of_update {acquiring : Nat → Option Acquiring} {p q d : Nat} {next : Option Acquiring}
    (hnext : next ≠ some (.proxyTaken d)) (h : update acquiring p next q = some (.proxyTaken d)) :
    acquiring q = some (.proxyTaken d) := by
  by_cases hqp : q = p
  · subst hqp
    rw [Function.update_self] at h
    exact absurd h hnext
  · rwa [Function.update_of_ne hqp] at h

/-- A view names the slot it is of. -/
theorem view_slot (slot : Option CapacitySlot) (r : Nat) :
    (view slot r = .starting ↔ slot = some (.starting r)) ∧ (view slot r = .active ↔ slot = some (.active r)) := by
  rcases slot with _ | r' | r'
  · simp [view]
  · by_cases hr : r' = r <;> simp [view, hr]
  · by_cases hr : r' = r <;> simp [view, hr]

theorem view_starting {slot : Option CapacitySlot} {r : Nat} : view slot r = .starting ↔ slot = some (.starting r) :=
  (view_slot slot r).1

theorem view_active {slot : Option CapacitySlot} {r : Nat} : view slot r = .active ↔ slot = some (.active r) :=
  (view_slot slot r).2

theorem absent_ok (h : l.stage ≠ .held) : LeaseOk l .absent := fun hheld => absurd hheld h

theorem abandonStarting_placed (h : s.Placed) (hl : s.leases[r]? = some l) (hsetup : l.setup ≠ .over) (setup : SetupPhase) :
    (s.abandonStarting l r setup).Placed := by
  have honce := release_once (l := { l with terminal := true, setup }) (h.once r l hl)
  simp only [abandonStarting]
  split
  · next hstarting =>
    have hslot : s.slots l.proxy l.client = some (.starting r) := by simpa [isStarting] using hstarting
    have hview : view (s.slots l.proxy l.client) r ≠ .absent := by rw [view_starting.2 hslot]; nofun
    exact h.slot hl hview (.inl rfl) (release_proxy _) (release_client _) (absent_ok (release_not_held _)) honce
  · next hstarting =>
    refine h.lease hl (release_proxy _) (release_client _) ?_ honce
    intro v hok hv
    cases v with
    | absent => exact absent_ok (release_not_held _)
    | starting => exact absurd (by simpa [isStarting] using view_starting.1 hv.symm) hstarting
    | active => exact absurd hok.2.1 hsetup

theorem publish_placed (h : s.Placed) (r : Nat) : (s.step (.publish r)).Placed := by
  simp only [step, onLease]
  split
  · next l hl =>
    split
    · next hguard =>
      simp only [Bool.and_eq_true, decide_eq_true_eq] at hguard
      split
      · next hstarting =>
        have hslot : s.slots l.proxy l.client = some (.starting r) := by simpa [isStarting] using hstarting
        have hview := view_starting.2 hslot
        have hok := h.each r l hl
        rw [hview] at hok
        have hheld : l.stage = .held := by
          rcases hok.2 with ⟨-, -, hheld⟩ | ⟨hbad, -⟩ | ⟨hbad, -⟩
          · exact hheld
          · rw [hguard.2] at hbad; cases hbad
          · rw [hguard.2] at hbad; cases hbad
        refine h.slot hl (by rw [hview]; nofun) (.inr rfl) rfl rfl ?_ (h.once r l hl)
        rw [view_active.2 rfl]
        exact ⟨hheld, rfl, hok.1⟩
      · next hstarting =>
        refine h.lease hl rfl rfl ?_ (h.once r l hl)
        intro v hok hv
        cases v with
        | absent =>
          intro hheld
          rcases hok hheld with hbad | hending
          · rw [hguard.2] at hbad; cases hbad
          · exact .inr hending
        | starting => exact absurd (by simpa [isStarting] using view_starting.1 hv.symm) hstarting
        | active =>
          have hbad := hok.2.1
          rw [hguard.2] at hbad
          cases hbad
    · exact h
  · exact h

/-- A lease that is being stopped is in no slot. -/
theorem ending_absent {v : SlotView} (hok : LeaseOk l v) (hending : l.ending ≠ .none) : v = .absent := by
  cases v with
  | absent => rfl
  | starting => exact absurd hok.1 hending
  | active => exact absurd hok.2.2 hending

/-- Whoever has a lease out of its slot releases it. -/
theorem Placed.stopped (h : s.Placed) (hl : s.leases[r]? = some l) (hending : l.ending ≠ .none) :
    (s.changeLease r fun l => { l with ending := .none }.release).Placed := by
  refine h.lease hl (release_proxy _) (release_client _) ?_ (release_once (l := { l with ending := .none }) (h.once r l hl))
  intro v hok _
  rw [ending_absent hok hending]
  exact absent_ok (release_not_held _)

theorem drain_placed (h : s.Placed) (p : Nat) : (s.step (.drain p)).Placed := by
  simp only [step]
  split
  · have hsame : ∀ r l, (s.drainLease p r l).proxy = l.proxy ∧ (s.drainLease p r l).client = l.client := by
      intro r l
      refine ⟨(drainLease_keeps s p r).proxy l, ?_⟩
      simp only [drainLease]
      split
      · split
        · exact release_client _
        · split <;> rfl
      · rfl
    have hslots : ∀ q c, update s.slots p (fun _ => none) q c = if q = p then none else s.slots q c := by
      intro q c
      by_cases hq : q = p
      · subst hq
        simp
      · simp [hq]
    have hlease : ∀ r l', (s.leases.mapIdx (s.drainLease p))[r]? = some l' →
        ∃ l, s.leases[r]? = some l ∧ l' = s.drainLease p r l := by
      intro r l' hl'
      rw [List.getElem?_mapIdx] at hl'
      obtain ⟨l, hl, rfl⟩ := Option.map_eq_some_iff.1 hl'
      exact ⟨l, hl, rfl⟩
    constructor
    · intro q c r hv
      change view (update s.slots p (fun _ => none) q c) r ≠ .absent at hv
      rw [hslots] at hv
      split at hv
      · exact absurd rfl hv
      · obtain ⟨l, hl, hp, hc⟩ := h.known q c r hv
        refine ⟨s.drainLease p r l, ?_, (hsame r l).1.trans hp, (hsame r l).2.trans hc⟩
        simp only [List.getElem?_mapIdx, hl, Option.map_some]
    · intro r l' hl'
      obtain ⟨l, hl, rfl⟩ := hlease r l' hl'
      change LeaseOk _ (view (update s.slots p (fun _ => none) _ _) r)
      have hok := h.each r l hl
      rw [hslots, (hsame r l).1, (hsame r l).2]
      split
      · next hp =>
        rw [hp] at hok
        simp only [drainLease, hp, if_true]
        split
        · exact absent_ok (release_not_held _)
        · next hstarting =>
          split
          · exact fun _ => .inr nofun
          · next hactive =>
            have hview : view (s.slots p l.client) r = .absent := by
              cases hv : view (s.slots p l.client) r with
              | absent => rfl
              | starting => exact absurd (view_starting.1 hv) hstarting
              | active => exact absurd (view_active.1 hv) hactive
            rwa [hview] at hok
      · next hp =>
        simp only [drainLease, hp, if_false]
        exact hok
    · intro r l' hl'
      obtain ⟨l, hl, rfl⟩ := hlease r l' hl'
      simp only [drainLease]
      split
      · split
        · exact release_once (l := { l with terminal := true }) (h.once r l hl)
        · split <;> exact h.once r l hl
      · exact h.once r l hl
    · intro q c hacq
      change update s.slots p (fun _ => none) q c = none
      rw [hslots]
      split
      · rfl
      · exact h.vacant q c hacq
  · exact h

theorem acquireGlobal_placed (h : s.Placed) (p : Nat) : (s.acquireGlobal p).Placed := by
  simp only [acquireGlobal]
  split
  · next c hacq =>
    have hnone := h.vacant p c hacq
    split
    · have hslots : ∀ q d, update s.slots p (update (s.slots p) c (some (.starting s.leases.length))) q d =
          if q = p ∧ d = c then some (.starting s.leases.length) else s.slots q d := by
        intro q d
        by_cases hq : q = p
        · subst hq
          by_cases hd : d = c <;> simp [hd]
        · simp [hq]
      have hold : ∀ r, r < s.leases.length → ∀ q d,
          view (if q = p ∧ d = c then some (.starting s.leases.length) else s.slots q d) r = view (s.slots q d) r := by
        intro r hr q d
        split
        · next hqd =>
          rw [hqd.1, hqd.2, hnone]
          exact if_neg (Nat.ne_of_gt hr)
        · rfl
      have hget : ∀ {r : Nat} {l : CapacityLease} {new : CapacityLease}, (s.leases ++ [new])[r]? = some l →
          (r < s.leases.length ∧ s.leases[r]? = some l) ∨ (r = s.leases.length ∧ l = new) := by
        intro r l new hl
        rcases Nat.lt_trichotomy r s.leases.length with hr | rfl | hr
        · rw [List.getElem?_append_left hr] at hl
          exact .inl ⟨hr, hl⟩
        · rw [List.getElem?_concat_length] at hl
          exact .inr ⟨rfl, (Option.some.inj hl).symm⟩
        · rw [List.getElem?_eq_none (by simp; omega)] at hl
          cases hl
      constructor
      · intro q d r hv
        change view (update s.slots p _ q d) r ≠ .absent at hv
        rw [hslots] at hv
        by_cases hqd : q = p ∧ d = c
        · rw [if_pos hqd] at hv
          have hr : s.leases.length = r := by
            by_contra hne
            exact hv (if_neg hne)
          subst hr
          exact ⟨_, List.getElem?_concat_length, hqd.1.symm, hqd.2.symm⟩
        · rw [if_neg hqd] at hv
          obtain ⟨l, hl, hp, hc⟩ := h.known q d r hv
          obtain ⟨hr, -⟩ := List.getElem?_eq_some_iff.1 hl
          exact ⟨l, by rw [List.getElem?_append_left hr]; exact hl, hp, hc⟩
      · intro r l hl
        change LeaseOk l (view (update s.slots p _ l.proxy l.client) r)
        rw [hslots]
        rcases hget hl with ⟨hr, hl⟩ | ⟨rfl, rfl⟩
        · rw [hold r hr]
          exact h.each r l hl
        · rw [if_pos ⟨rfl, rfl⟩, view_starting.2 rfl]
          exact ⟨rfl, .inl ⟨rfl, rfl, rfl⟩⟩
      · intro r l hl
        rcases hget hl with ⟨hr, hl⟩ | ⟨rfl, rfl⟩
        · exact h.once r l hl
        · rfl
      · intro q d hacq'
        change update s.slots p _ q d = none
        by_cases hq : q = p
        · subst hq
          simp at hacq'
        · simp only [Function.update_of_ne hq] at hacq' ⊢
          exact h.vacant q d hacq'
    · exact h.congr rfl rfl fun q d => taken_of_update (by simp)
  · exact h

theorem resolve_placed (h : s.Placed) (p c : Nat) : (s.resolve p c).Placed := by
  simp only [resolve]
  split
  · exact h
  · next r hslot =>
    split
    · next hguard =>
      have hview := view_starting.2 hslot
      obtain ⟨l, hl, rfl, rfl⟩ := h.known p c r (by rw [hview]; nofun)
      have hok := h.each r l hl
      simp only [Bool.and_eq_true, hl, Option.any_some] at hguard
      have hterminal := hguard.2
      rw [hview] at hok
      have hout : LeaseOk l .absent := by
        rcases hok.2 with ⟨-, hbad, -⟩ | ⟨hdropping, -⟩ | ⟨-, -, hreleased⟩
        · rw [hterminal] at hbad; cases hbad
        · exact fun _ => .inl hdropping
        · exact absent_ok hreleased
      have hplaced := h.slot (f := id) hl (by rw [hview]; nofun) (.inl rfl) rfl rfl hout (h.once r l hl)
      exact hplaced.congr rfl (by simp [changeLease, setSlot]) fun _ _ hacq => hacq
    · exact h
  · next hslot =>
    split
    · constructor
      · exact h.known
      · exact h.each
      · exact h.once
      · intro q d hq
        by_cases hqp : q = p
        · subst hqp
          simp only [Function.update_self, Option.some.injEq, Acquiring.proxyTaken.injEq] at hq
          subst hq
          exact hslot
        · simp only [Function.update_of_ne hqp] at hq
          exact h.vacant q d hq
    · exact h

theorem step_placed (s : CapacityState) (op : CapacityOp) (h : s.Placed) : (s.step op).Placed := by
  cases op with
  | resolve p c => exact resolve_placed h p c
  | acquireGlobal p => exact acquireGlobal_placed h p
  | takeBack p =>
    simp only [step, takeBack]
    split
    · exact h.congr rfl rfl fun q d => taken_of_update (by simp)
    · exact h
  | publish r => exact publish_placed h r
  | abandon r =>
    simp only [step, onLease]
    split
    · next l hl =>
      split
      · split
        · next hsetup => exact abandonStarting_placed h hl (by rw [hsetup]; nofun) _
        · next hsetup => exact abandonStarting_placed h hl (by rw [hsetup]; nofun) _
        · exact h
      · exact h
    · exact h
  | joined r =>
    simp only [step, onLease]
    split
    · next l hl =>
      split
      · next hsetup =>
        refine h.lease hl rfl rfl ?_ (h.once r l hl)
        intro v hok _
        cases v with
        | absent => exact fun hheld => (hok hheld).imp_left fun hbad => by rw [hsetup] at hbad; cases hbad
        | starting =>
          rcases hok.2 with ⟨hbad, -⟩ | ⟨hbad, -⟩ | ⟨hbad, -⟩ <;> rw [hsetup] at hbad <;> cases hbad
        | active =>
          have hbad := hok.2.1
          rw [hsetup] at hbad
          cases hbad
      · exact h
    · exact h
  | dropOwner r free =>
    have hdrop : ∀ l, s.leases[r]? = some l → l.setup ≠ .over →
        (if free then if s.free l.proxy then s.abandonStarting l r .over else s
          else s.changeLease r fun l => { l with terminal := true, setup := .dropping }).Placed := by
      intro l hl hsetup
      split
      · split
        · exact abandonStarting_placed h hl hsetup _
        · exact h
      · refine h.lease hl rfl rfl ?_ (h.once r l hl)
        intro v hok _
        cases v with
        | absent => exact fun _ => .inl rfl
        | starting => exact ⟨hok.1, .inr (.inl ⟨rfl, rfl⟩)⟩
        | active => exact absurd hok.2.1 hsetup
    simp only [step, onLease]
    split
    · next l hl =>
      split
      · next hsetup => exact hdrop l hl (by rw [hsetup]; nofun)
      · next hsetup => exact hdrop l hl (by rw [hsetup]; nofun)
      · next hsetup => exact hdrop l hl (by rw [hsetup]; nofun)
      · exact h
    · exact h
  | releaseDropped r =>
    simp only [step, onLease]
    split
    · next l hl =>
      split
      · next hsetup =>
        refine h.lease hl (release_proxy _) (release_client _) ?_
          (release_once (l := { l with setup := .over }) (h.once r l hl))
        intro v hok _
        cases v with
        | absent => exact absent_ok (release_not_held _)
        | starting =>
          have hkept : ∀ l : CapacityLease, l.release.ending = l.ending ∧ l.release.setup = l.setup ∧
              l.release.terminal = l.terminal := by
            intro l
            simp only [CapacityLease.release]
            split <;> exact ⟨rfl, rfl, rfl⟩
          obtain ⟨hending, hover, hterm⟩ := hkept { l with setup := .over }
          refine ⟨hending.trans hok.1, .inr (.inr ⟨hover, ?_, release_not_held _⟩)⟩
          rcases hok.2 with ⟨hbad, -⟩ | ⟨-, ht⟩ | ⟨hbad, -⟩
          · rw [hsetup] at hbad; cases hbad
          · exact hterm.trans ht
          · rw [hsetup] at hbad; cases hbad
        | active =>
          have hbad := hok.2.1
          rw [hsetup] at hbad
          cases hbad
      · exact h
    · exact h
  | drain p => exact drain_placed h p
  | remove p c =>
    simp only [step]
    split
    · next r hslot =>
      split
      · have hview := view_active.2 hslot
        obtain ⟨l, hl, rfl, rfl⟩ := h.known p c r (by rw [hview]; nofun)
        exact h.slot hl (by rw [hview]; nofun) (.inl rfl) rfl rfl (fun _ => .inr nofun) (h.once r l hl)
      · exact h
    · exact h
  | stop r | dropLease r =>
    simp only [step, onLease]
    split
    · next l hl =>
      split
      · next hending => exact h.stopped hl (by rw [hending]; nofun)
      · exact h
    · exact h
  | dropStop r =>
    simp only [step, onLease]
    split
    · next l hl =>
      split
      · next hending =>
        refine h.lease hl rfl rfl ?_ (h.once r l hl)
        intro v hok _
        rw [ending_absent hok (by rw [hending]; nofun)]
        exact fun _ => .inr nofun
      · exact h
    · exact h
  | subGlobal r | subProxy r =>
    simp only [step, onLease]
    split
    · next l hl =>
      split
      · next hstage =>
        have hreleases : l.releases = 1 := by rw [h.once r l hl, hstage]; rfl
        refine Placed.congr (h.lease hl rfl rfl ?_ hreleases) rfl rfl fun _ _ hacq => hacq
        intro v hok _
        cases v with
        | absent => exact absent_ok nofun
        | starting =>
          refine ⟨hok.1, hok.2.imp ?_ (Or.imp_right fun hover => ⟨hover.1, hover.2.1, nofun⟩)⟩
          rintro ⟨-, -, hbad⟩
          rw [hstage] at hbad
          cases hbad
        | active =>
          have hbad := hok.1
          rw [hstage] at hbad
          cases hbad
      · exact h
    · exact h
  | lower p cap | reserve bytes =>
    simp only [step]
    split
    · exact h.congr rfl rfl fun _ _ hacq => hacq
    · exact h
  | write p | dropReservation i =>
    simp only [step]
    split
    · exact h.congr rfl rfl fun _ _ hacq => hacq
    · exact h

end

/-! ## Every run -/

/-- The capacity of a runtime is exact: each counter is its unreleased leases and
those midway, within its limit; every lease is released at most once and is in a
slot or in somebody's hands until then; and slots hold unreleased leases. -/
structure ExactCapacity (s : CapacityState) : Prop where
  proxy : ∀ p, s.proxyActive p = s.unreleasedOf p + s.midwayOf p + s.taking p
  global : s.globalActive = s.unreleased + s.midway
  cap : ∀ p, s.proxyActive p ≤ s.limit p
  globalCap : s.globalActive ≤ s.globalLimit
  unwrapped : s.wrapped = false
  once : ∀ l ∈ s.leases, l.releases = if l.stage = .held then 0 else 1
  kept : ∀ (r : Nat) (l : CapacityLease), s.leases[r]? = some l → l.stage = .held →
    s.slots l.proxy l.client = some (.starting r) ∨ s.slots l.proxy l.client = some (.active r) ∨
      l.setup = .dropping ∨ l.ending ≠ .none
  active : ∀ p c r, s.slots p c = some (.active r) →
    ∃ l, s.leases[r]? = some l ∧ l.proxy = p ∧ l.client = c ∧ l.stage = .held
  starting : ∀ p c r, s.slots p c = some (.starting r) →
    ∃ l, s.leases[r]? = some l ∧ l.proxy = p ∧ l.client = c ∧ (l.terminal = false → l.stage = .held)
  ingress : s.ingressBufferedBytes = s.reservations.sum
  ingressCap : s.ingressBufferedBytes ≤ s.ingressLimit

theorem exactCapacity_of {s : CapacityState} (hc : s.Counted) (hp : s.Placed) : s.ExactCapacity where
  proxy p := by rw [hc.proxy, owedOf_eq]
  global := by rw [hc.global, owed_eq]
  cap := hc.cap
  globalCap := hc.globalCap
  unwrapped := hc.unwrapped
  once l hl := by
    obtain ⟨r, hr⟩ := List.getElem?_of_mem hl
    exact hp.once r l hr
  kept r l hl hheld := by
    have hok := hp.each r l hl
    cases hv : view (s.slots l.proxy l.client) r with
    | starting => exact .inl (view_starting.1 hv)
    | active => exact .inr (.inl (view_active.1 hv))
    | absent =>
      rw [hv] at hok
      exact .inr (.inr (hok hheld))
  active p c r hslot := by
    have hv := view_active.2 hslot
    obtain ⟨l, hl, rfl, rfl⟩ := hp.known p c r (by rw [hv]; nofun)
    have hok := hp.each r l hl
    rw [hv] at hok
    exact ⟨l, hl, rfl, rfl, hok.1⟩
  starting p c r hslot := by
    have hv := view_starting.2 hslot
    obtain ⟨l, hl, rfl, rfl⟩ := hp.known p c r (by rw [hv]; nofun)
    have hok := hp.each r l hl
    rw [hv] at hok
    refine ⟨l, hl, rfl, rfl, fun hopen => ?_⟩
    rcases hok.2 with ⟨-, -, hheld⟩ | ⟨-, hterminal⟩ | ⟨-, hterminal, -⟩
    · exact hheld
    · rw [hopen] at hterminal; cases hterminal
    · rw [hopen] at hterminal; cases hterminal
  ingress := hc.ingress
  ingressCap := hc.ingressCap

/-- After every run of setups, teardowns, drops and cap changes, in any order, the
capacity is exact. -/
theorem capacity_exact (globalLimit ingressLimit : Nat) (limit : Nat → Nat) (ops : List CapacityOp) :
    (run step (start globalLimit ingressLimit limit) ops).ExactCapacity := by
  have hcounted : (start globalLimit ingressLimit limit).Counted :=
    ⟨rfl, fun _ => rfl, Nat.zero_le _, fun _ => Nat.zero_le _, nofun, rfl, Nat.zero_le _, rfl⟩
  have hplaced : (start globalLimit ingressLimit limit).Placed := by
    refine ⟨fun p c r hv => absurd rfl hv, ?_, ?_, nofun⟩
    · intro r l hl
      cases hl
    · intro r l hl
      cases hl
  exact exactCapacity_of (run_inv Counted step_counted hcounted ops) (run_inv Placed step_placed hplaced ops)

/-- A failed bind has won the `swap` of its lease and lowered no counter yet; and
a client of a second proxy has raised that proxy's counter for a lease the runtime
has no room for. -/
theorem counters_trail_leases :
    (let s := run step (start 1 1024 fun _ => 1) [.resolve 0 0, .acquireGlobal 0, .abandon 0]
     s.unreleasedOf 0 = 0 ∧ s.proxyActive 0 = 1 ∧ s.unreleased = 0 ∧ s.globalActive = 1) ∧
      (let s := run step (start 1 1024 fun _ => 1) [.resolve 0 0, .acquireGlobal 0, .resolve 1 0, .acquireGlobal 1]
       s.unreleasedOf 1 = 0 ∧ s.proxyActive 1 = 1 ∧ (s.step (.takeBack 1)).proxyActive 1 = 0) := by
  decide

end CapacityState

end Eggchaos
