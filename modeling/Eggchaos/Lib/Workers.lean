import Mathlib.Logic.Function.Basic
import Mathlib.Data.Set.Insert
/-!
# Workers behind slots

Slots are kept by name, workers by number. A slot that runs refers to the one
worker that serves it, by number and by cancellation token; a worker leaves when
its slot is gone or its token is cancelled. Callers change slots and workers in
several steps, and what a caller has in hand between two of them is its `Hold`:
a worker that it spawned and has not stored yet, or one whose end it awaits.

`Accounted` holds along every sequence of steps, whatever the callers do: a
worker that has not left serves the slot of its name or is in some caller's
hands. So once no caller has a worker of a name in hand, a slot that runs has
exactly its own worker and every other name has none (`Accounted.served`,
`Accounted.unserved`).
-/

namespace Eggchaos.Lib.Workers

variable {N : Type}

structure Worker (N : Type) where
  name : N
  token : Nat
  live : Bool

structure Slot where
  running : Bool
  cancel : Nat
  done : Option Nat

/-- What a caller has in hand. -/
inductive Hold (N : Type) where
  | nothing
  | spawned (name : N) (k : Nat)
  | awaiting (name : N) (done : Option Nat)

/-- The worker in hand, with the name it is for. -/
def Hold.worker : Hold N → Option (N × Nat)
  | .spawned name k | .awaiting name (some k) => some (name, k)
  | .nothing | .awaiting _ none => none

/-- The slots, the workers ever spawned, the tokens made so far and those that
are cancelled, and the callers' hands. -/
structure Pool (N : Type) where
  slot : N → Option Slot
  worker : Nat → Option (Worker N)
  tokens : Nat
  cancelled : Set Nat
  hold : Nat → Hold N

open Function (update)

/-- One step of a caller or of a worker. -/
inductive Step [DecidableEq N] : Pool N → Pool N → Prop where
  | stay (p : Pool N) : Step p p
  /-- The awaited worker has left. -/
  | release (p : Pool N) (i : Nat) (name : N) (done : Option Nat) (hhold : p.hold i = .awaiting name done)
      (hleft : ∀ k w, done = some k → p.worker k = some w → w.live = false) :
      Step p { p with hold := update p.hold i .nothing }
  /-- A slot stops running under a new token. -/
  | retire (p : Pool N) (i : Nat) (name : N) (c : Slot) (hhold : p.hold i = .nothing) (hslot : p.slot name = some c)
      (hrun : c.running) :
      Step p { p with
        slot := update p.slot name (some ⟨false, p.tokens, c.done⟩)
        tokens := p.tokens + 1
        cancelled := insert c.cancel p.cancelled
        hold := update p.hold i (.awaiting name c.done) }
  | remove (p : Pool N) (i : Nat) (name : N) (c : Slot) (hhold : p.hold i = .nothing) (hslot : p.slot name = some c) :
      Step p { p with
        slot := update p.slot name none
        cancelled := insert c.cancel p.cancelled
        hold := update p.hold i (.awaiting name c.done) }
  | spawn (p : Pool N) (i : Nat) (name : N) (k : Nat) (hhold : p.hold i = .nothing) (hnew : p.worker k = none) :
      Step p { p with
        worker := update p.worker k (some ⟨name, p.tokens, true⟩)
        tokens := p.tokens + 1
        hold := update p.hold i (.spawned name k) }
  /-- A worker that has not left is stored in a slot that does not run. -/
  | store (p : Pool N) (i : Nat) (name : N) (k : Nat) (w : Worker N) (hhold : p.hold i = .spawned name k)
      (hworker : p.worker k = some w) (hlive : w.live) (hidle : ∀ c, p.slot name = some c → c.running = false) :
      Step p { p with
        slot := update p.slot name (some ⟨true, w.token, some k⟩)
        hold := update p.hold i .nothing }
  | addStopped (p : Pool N) (name : N) (hslot : p.slot name = none) :
      Step p { p with
        slot := update p.slot name (some ⟨false, p.tokens, none⟩)
        tokens := p.tokens + 1 }
  | abandon (p : Pool N) (i : Nat) (name : N) (k : Nat) (w : Worker N) (hhold : p.hold i = .spawned name k)
      (hworker : p.worker k = some w) :
      Step p { p with
        cancelled := insert w.token p.cancelled
        hold := update p.hold i (.awaiting name (some k)) }
  /-- A worker leaves because its slot is gone or its token cancelled. -/
  | leave (p : Pool N) (k : Nat) (w : Worker N) (hworker : p.worker k = some w)
      (hwhy : p.slot w.name = none ∨ w.token ∈ p.cancelled) :
      Step p { p with worker := update p.worker k (some { w with live := false }) }

@[simp] theorem Hold.worker_awaiting (name : N) (done : Option Nat) :
    (Hold.awaiting name done).worker = done.map (name, ·) := by
  cases done <;> rfl

/-- Every live worker is accounted for. -/
structure Accounted (p : Pool N) : Prop where
  worker_token : ∀ k w, p.worker k = some w → w.token < p.tokens
  token_inj : ∀ j k v w, p.worker j = some v → p.worker k = some w → v.token = w.token → j = k
  slot_token : ∀ name c, p.slot name = some c → c.cancel < p.tokens
  cancelled_token : ∀ token ∈ p.cancelled, token < p.tokens
  slot_done : ∀ name c k, p.slot name = some c → c.done = some k → ∃ w, p.worker k = some w ∧ w.name = name
  running : ∀ name c, p.slot name = some c → c.running →
    ∃ k w, c.done = some k ∧ p.worker k = some w ∧ w.live ∧ w.token = c.cancel ∧ w.token ∉ p.cancelled
  stopped : ∀ name c k w, p.slot name = some c → c.running = false → p.worker k = some w → w.token ≠ c.cancel
  live : ∀ k w, p.worker k = some w → w.live →
    (∃ c, p.slot w.name = some c ∧ c.running ∧ c.done = some k) ∨ ∃ i, (p.hold i).worker = some (w.name, k)
  held : ∀ i name k, (p.hold i).worker = some (name, k) → ∃ w, p.worker k = some w ∧ w.name = name
  spawned : ∀ i name k, p.hold i = .spawned name k →
    ∃ w, p.worker k = some w ∧ w.token ∉ p.cancelled ∧ ∀ m c, p.slot m = some c → c.running → c.done ≠ some k
  spawned_once : ∀ i j name m k, p.hold i = .spawned name k → p.hold j = .spawned m k → i = j

/-! ## Steps keep the account -/

/-- A worker stays in hand when a caller moves on that does not have it, or that
still has it. -/
theorem held_update {hold : Nat → Hold N} {i : Nat} {new : Hold N} {x : N × Nat}
    (h : ∃ j, (hold j).worker = some x) (hi : (hold i).worker = some x → new.worker = some x) :
    ∃ j, (update hold i new j).worker = some x := by
  obtain ⟨j, hj⟩ := h
  refine ⟨j, ?_⟩
  by_cases hji : j = i
  · subst hji
    rw [Function.update_self]
    exact hi hj
  · rwa [Function.update_of_ne hji]

namespace Accounted

variable {p : Pool N} {i : Nat} {name : N}

/-- The token of a slot is that of its own worker or of none. -/
theorem cancel_own (h : Accounted p) {c : Slot} {k : Nat} {w : Worker N} (hslot : p.slot name = some c)
    (hworker : p.worker k = some w) (htoken : w.token = c.cancel) : c.running ∧ c.done = some k ∧ w.name = name := by
  cases hrun : c.running with
  | false => exact absurd htoken (h.stopped name c k w hslot hrun hworker)
  | true =>
    obtain ⟨j, v, hdone, hv, -, hvtoken, -⟩ := h.running name c hslot hrun
    have hjk := h.token_inj j k v w hv hworker (hvtoken.trans htoken.symm)
    subst hjk
    obtain ⟨w', hw', hname⟩ := h.slot_done name c j hslot hdone
    rw [hworker] at hw'
    cases hw'
    exact ⟨rfl, hdone, hname⟩

theorem release (h : Accounted p) {done : Option Nat} (hhold : p.hold i = .awaiting name done)
    (hleft : ∀ k w, done = some k → p.worker k = some w → w.live = false) :
    Accounted { p with hold := update p.hold i .nothing } where
  worker_token := h.worker_token
  token_inj := h.token_inj
  slot_token := h.slot_token
  cancelled_token := h.cancelled_token
  slot_done := h.slot_done
  running := h.running
  stopped := h.stopped
  live := by
    intro k w hw hl
    refine (h.live k w hw hl).imp_right fun hheld => held_update hheld fun hi => ?_
    rw [hhold] at hi
    cases done with
    | none => cases hi
    | some j =>
      cases hi
      rw [hleft k w rfl hw] at hl
      cases hl
  held := by
    have := h.held
    grind [Function.update_apply, Hold.worker]
  spawned := by
    have := h.spawned
    grind [Function.update_apply]
  spawned_once := by
    have := h.spawned_once
    grind [Function.update_apply]

/-- A slot is given up, for one that does not run or for none, and its worker is
awaited. -/
theorem withdraw [DecidableEq N] (h : Accounted p) {c : Slot} (hhold : p.hold i = .nothing) (hslot : p.slot name = some c)
    {new : Option Slot} {tokens : Nat} (hle : p.tokens ≤ tokens)
    (hnew : ∀ d, new = some d → d.running = false ∧ d.done = c.done ∧ p.tokens ≤ d.cancel ∧ d.cancel < tokens) :
    Accounted {
      slot := update p.slot name new
      worker := p.worker
      tokens
      cancelled := insert c.cancel p.cancelled
      hold := update p.hold i (.awaiting name c.done) } where
  worker_token k w hw := Nat.lt_of_lt_of_le (h.worker_token k w hw) hle
  token_inj := h.token_inj
  slot_token := by
    have := h.slot_token
    grind [Function.update_apply]
  cancelled_token := by
    rintro token (rfl | hmem)
    · exact Nat.lt_of_lt_of_le (h.slot_token name c hslot) hle
    · exact Nat.lt_of_lt_of_le (h.cancelled_token token hmem) hle
  slot_done := by
    have := h.slot_done
    grind [Function.update_apply]
  running := by
    intro m c' hm hrun
    by_cases hmn : m = name
    · simp only [hmn, Function.update_self] at hm
      rw [(hnew c' hm).1] at hrun
      cases hrun
    · simp only [Function.update_of_ne hmn] at hm
      obtain ⟨k, w, hdone, hw, hl, htoken, hnot⟩ := h.running m c' hm hrun
      refine ⟨k, w, hdone, hw, hl, htoken, ?_⟩
      rintro (heq | hmem)
      · obtain ⟨w', hw', hname⟩ := h.slot_done m c' k hm hdone
        rw [hw] at hw'
        cases hw'
        exact hmn (hname ▸ (h.cancel_own hslot hw heq).2.2)
      · exact hnot hmem
  stopped := by
    have := h.stopped
    have := h.worker_token
    grind [Function.update_apply]
  live := by
    intro k w hw hl
    rcases h.live k w hw hl with ⟨c', hc', hrun, hdone⟩ | hheld
    · by_cases hwn : w.name = name
      · -- the worker of the slot is now awaited
        rw [hwn, hslot] at hc'
        cases hc'
        refine .inr ⟨i, ?_⟩
        simp [hdone, hwn]
      · refine .inl ⟨c', ?_, hrun, hdone⟩
        simpa only [Function.update_of_ne hwn] using hc'
    · refine .inr (held_update hheld fun hi => ?_)
      rw [hhold] at hi
      cases hi
  held := by
    have := h.held
    have := h.slot_done
    intro j m k hj
    by_cases hji : j = i
    · simp only [hji, Function.update_self, Hold.worker_awaiting, Option.map_eq_some_iff] at hj
      obtain ⟨k', hdone, heq⟩ := hj
      cases heq
      exact h.slot_done name c k hslot hdone
    · simp only [Function.update_of_ne hji] at hj
      exact h.held j m k hj
  spawned := by
    intro j m k hj
    by_cases hji : j = i
    · simp only [hji, Function.update_self] at hj
      cases hj
    · simp only [Function.update_of_ne hji] at hj
      obtain ⟨w, hw, hnot, hslots⟩ := h.spawned j m k hj
      refine ⟨w, hw, ?_, ?_⟩
      · rintro (heq | hmem)
        · obtain ⟨hrun, hdone, -⟩ := h.cancel_own hslot hw heq
          exact hslots name c hslot hrun hdone
        · exact hnot hmem
      · grind [Function.update_apply]
  spawned_once := by
    have := h.spawned_once
    grind [Function.update_apply]

theorem spawn (h : Accounted p) {k : Nat} (hhold : p.hold i = .nothing) (hnew : p.worker k = none) :
    Accounted { p with
      worker := update p.worker k (some ⟨name, p.tokens, true⟩)
      tokens := p.tokens + 1
      hold := update p.hold i (.spawned name k) } where
  worker_token := by
    have := h.worker_token
    grind [Function.update_apply]
  token_inj := by
    have := h.worker_token
    have := h.token_inj
    grind [Function.update_apply]
  slot_token n c hc := Nat.lt_succ_of_lt (h.slot_token n c hc)
  cancelled_token token hmem := Nat.lt_succ_of_lt (h.cancelled_token token hmem)
  slot_done := by
    have := h.slot_done
    grind [Function.update_apply]
  running := by
    intro m c hm hrun
    obtain ⟨j, w, hdone, hw, hrest⟩ := h.running m c hm hrun
    refine ⟨j, w, hdone, ?_, hrest⟩
    grind [Function.update_apply]
  stopped := by
    have := h.stopped
    have := h.slot_token
    grind [Function.update_apply]
  live := by
    intro j w hw hl
    by_cases hjk : j = k
    · simp only [hjk, Function.update_self, Option.some.injEq] at hw
      refine .inr ⟨i, ?_⟩
      simp [← hw, hjk, Hold.worker]
    · simp only [Function.update_of_ne hjk] at hw
      refine (h.live j w hw hl).imp_right fun hheld => held_update hheld fun hi => ?_
      rw [hhold] at hi
      cases hi
  held := by
    intro j m k' hj
    by_cases hji : j = i
    · simp only [hji, Function.update_self, Hold.worker, Option.some.injEq, Prod.mk.injEq] at hj
      obtain ⟨rfl, rfl⟩ := hj
      exact ⟨_, Function.update_self _ _ _, rfl⟩
    · simp only [Function.update_of_ne hji] at hj
      obtain ⟨w, hw, hname⟩ := h.held j m k' hj
      refine ⟨w, ?_, hname⟩
      grind [Function.update_apply]
  spawned := by
    intro j m k' hj
    by_cases hji : j = i
    · simp only [hji, Function.update_self, Hold.spawned.injEq] at hj
      obtain ⟨rfl, rfl⟩ := hj
      refine ⟨_, Function.update_self _ _ _, ?_, ?_⟩
      · intro hmem
        exact Nat.lt_irrefl _ (h.cancelled_token _ hmem)
      · intro n c hc _ hdone
        obtain ⟨w, hw, -⟩ := h.slot_done n c k hc hdone
        rw [hnew] at hw
        cases hw
    · simp only [Function.update_of_ne hji] at hj
      obtain ⟨w, hw, hrest⟩ := h.spawned j m k' hj
      refine ⟨w, ?_, hrest⟩
      grind [Function.update_apply]
  spawned_once := by
    have := h.spawned_once
    have := h.spawned
    grind [Function.update_apply]

theorem store [DecidableEq N] (h : Accounted p) {k : Nat} {w : Worker N} (hhold : p.hold i = .spawned name k)
    (hworker : p.worker k = some w) (hlive : w.live) (hidle : ∀ c, p.slot name = some c → c.running = false) :
    Accounted { p with
      slot := update p.slot name (some ⟨true, w.token, some k⟩)
      hold := update p.hold i .nothing } where
  worker_token := h.worker_token
  token_inj := h.token_inj
  slot_token := by
    have := h.slot_token
    have := h.worker_token
    grind [Function.update_apply]
  cancelled_token := h.cancelled_token
  slot_done := by
    intro m c k' hm hdone
    by_cases hmn : m = name
    · simp only [hmn, Function.update_self, Option.some.injEq] at hm
      rw [← hm] at hdone
      cases hdone
      obtain ⟨w', hw', hname⟩ := h.held i name k (by rw [hhold]; rfl)
      exact ⟨w', hw', hname.trans hmn.symm⟩
    · simp only [Function.update_of_ne hmn] at hm
      exact h.slot_done m c k' hm hdone
  running := by
    intro m c hm hrun
    by_cases hmn : m = name
    · simp only [hmn, Function.update_self, Option.some.injEq] at hm
      subst hm
      obtain ⟨w', hw', hnot, -⟩ := h.spawned i name k hhold
      rw [hworker] at hw'
      cases hw'
      exact ⟨k, w, rfl, hworker, hlive, rfl, hnot⟩
    · simp only [Function.update_of_ne hmn] at hm
      exact h.running m c hm hrun
  stopped := by
    have := h.stopped
    grind [Function.update_apply]
  live := by
    intro j v hv hl
    by_cases hjk : j = k
    · -- the worker that was in hand is the slot's now
      subst hjk
      rw [hworker] at hv
      cases hv
      obtain ⟨w', hw', hname⟩ := h.held i name j (by rw [hhold]; rfl)
      rw [hworker] at hw'
      cases hw'
      refine .inl ⟨⟨true, w.token, some j⟩, ?_, rfl, rfl⟩
      rw [hname]
      exact Function.update_self _ _ _
    · rcases h.live j v hv hl with ⟨c, hc, hrun, hdone⟩ | hheld
      · refine .inl ⟨c, ?_, hrun, hdone⟩
        have hvn : v.name ≠ name := by
          intro hvn
          rw [hidle c (hvn ▸ hc)] at hrun
          cases hrun
        simpa only [Function.update_of_ne hvn] using hc
      · refine .inr (held_update hheld fun hi => ?_)
        rw [hhold] at hi
        cases hi
        exact absurd rfl hjk
  held := by
    have := h.held
    grind [Function.update_apply, Hold.worker]
  spawned := by
    intro j m k' hj
    by_cases hji : j = i
    · simp only [hji, Function.update_self] at hj
      cases hj
    · simp only [Function.update_of_ne hji] at hj
      obtain ⟨v, hv, hnot, hslots⟩ := h.spawned j m k' hj
      refine ⟨v, hv, hnot, ?_⟩
      intro n c hc hrun hdone
      by_cases hnn : n = name
      · simp only [hnn, Function.update_self, Option.some.injEq] at hc
        subst hc
        cases hdone
        exact hji (h.spawned_once j i m name k hj hhold)
      · simp only [Function.update_of_ne hnn] at hc
        exact hslots n c hc hrun hdone
  spawned_once := by
    have := h.spawned_once
    grind [Function.update_apply]

theorem addStopped [DecidableEq N] (h : Accounted p) (hslot : p.slot name = none) :
    Accounted { p with
      slot := update p.slot name (some ⟨false, p.tokens, none⟩)
      tokens := p.tokens + 1 } where
  worker_token k w hw := Nat.lt_succ_of_lt (h.worker_token k w hw)
  token_inj := h.token_inj
  slot_token := by
    have := h.slot_token
    grind [Function.update_apply]
  cancelled_token token hmem := Nat.lt_succ_of_lt (h.cancelled_token token hmem)
  slot_done := by
    have := h.slot_done
    grind [Function.update_apply]
  running := by
    have := h.running
    grind [Function.update_apply]
  stopped := by
    have := h.stopped
    have := h.worker_token
    grind [Function.update_apply]
  live := by
    intro k w hw hl
    refine (h.live k w hw hl).imp_left fun ⟨c, hc, hrest⟩ => ⟨c, ?_, hrest⟩
    have hwn : w.name ≠ name := by
      intro hwn
      rw [hwn, hslot] at hc
      cases hc
    simpa only [Function.update_of_ne hwn] using hc
  held := h.held
  spawned := by
    intro j m k hj
    obtain ⟨w, hw, hnot, hslots⟩ := h.spawned j m k hj
    refine ⟨w, hw, hnot, ?_⟩
    grind [Function.update_apply]
  spawned_once := h.spawned_once

theorem abandon (h : Accounted p) {k : Nat} {w : Worker N} (hhold : p.hold i = .spawned name k)
    (hworker : p.worker k = some w) :
    Accounted { p with
      cancelled := insert w.token p.cancelled
      hold := update p.hold i (.awaiting name (some k)) } where
  worker_token := h.worker_token
  token_inj := h.token_inj
  slot_token := h.slot_token
  cancelled_token := by
    rintro token (rfl | hmem)
    · exact h.worker_token k w hworker
    · exact h.cancelled_token token hmem
  slot_done := h.slot_done
  running := by
    intro m c hm hrun
    obtain ⟨j, v, hdone, hv, hl, htoken, hnot⟩ := h.running m c hm hrun
    refine ⟨j, v, hdone, hv, hl, htoken, ?_⟩
    rintro (heq | hmem)
    · -- a worker in hand is no slot's
      obtain ⟨-, -, -, hslots⟩ := h.spawned i name k hhold
      have hjk := h.token_inj j k v w hv hworker heq
      exact hslots m c hm hrun (hjk ▸ hdone)
    · exact hnot hmem
  stopped := h.stopped
  live := by
    intro j v hv hl
    refine (h.live j v hv hl).imp_right fun hheld => held_update hheld fun hi => ?_
    rw [hhold] at hi
    exact hi
  held := by
    intro j m k' hj
    by_cases hji : j = i
    · subst hji
      refine h.held j m k' ?_
      simp only [Function.update_self] at hj
      rw [hhold]
      exact hj
    · simp only [Function.update_of_ne hji] at hj
      exact h.held j m k' hj
  spawned := by
    intro j m k' hj
    by_cases hji : j = i
    · simp only [hji, Function.update_self] at hj
      cases hj
    · simp only [Function.update_of_ne hji] at hj
      obtain ⟨v, hv, hnot, hslots⟩ := h.spawned j m k' hj
      refine ⟨v, hv, ?_, hslots⟩
      rintro (heq | hmem)
      · have hkk := h.token_inj k' k v w hv hworker heq
        subst hkk
        exact hji (h.spawned_once j i m name k' hj hhold)
      · exact hnot hmem
  spawned_once := by
    have := h.spawned_once
    grind [Function.update_apply]

theorem leave (h : Accounted p) {k : Nat} {w : Worker N} (hworker : p.worker k = some w)
    (hwhy : p.slot w.name = none ∨ w.token ∈ p.cancelled) :
    Accounted { p with worker := update p.worker k (some { w with live := false }) } where
  worker_token := by
    have := h.worker_token
    grind [Function.update_apply]
  token_inj := by
    have := h.token_inj
    grind [Function.update_apply]
  slot_token := h.slot_token
  cancelled_token := h.cancelled_token
  slot_done := by
    intro m c j hm hdone
    obtain ⟨v, hv, hname⟩ := h.slot_done m c j hm hdone
    by_cases hjk : j = k
    · subst hjk
      rw [hworker] at hv
      cases hv
      exact ⟨_, Function.update_self _ _ _, hname⟩
    · exact ⟨v, by simpa only [Function.update_of_ne hjk] using hv, hname⟩
  running := by
    intro m c hm hrun
    obtain ⟨j, v, hdone, hv, hl, htoken, hnot⟩ := h.running m c hm hrun
    refine ⟨j, v, hdone, ?_, hl, htoken, hnot⟩
    -- a worker that serves a slot has no reason to leave
    have hjk : j ≠ k := by
      rintro rfl
      obtain ⟨v', hv', hname⟩ := h.slot_done m c j hm hdone
      rw [hworker] at hv hv'
      cases hv
      cases hv'
      rcases hwhy with hnone | hmem
      · rw [hname, hm] at hnone
        cases hnone
      · exact hnot hmem
    simpa only [Function.update_of_ne hjk] using hv
  stopped := by
    have := h.stopped
    grind [Function.update_apply]
  live := by
    intro j v hv hl
    by_cases hjk : j = k
    · simp only [hjk, Function.update_self, Option.some.injEq] at hv
      rw [← hv] at hl
      cases hl
    · simp only [Function.update_of_ne hjk] at hv
      exact h.live j v hv hl
  held := by
    intro i m j hj
    obtain ⟨v, hv, hname⟩ := h.held i m j hj
    by_cases hjk : j = k
    · subst hjk
      rw [hworker] at hv
      cases hv
      exact ⟨_, Function.update_self _ _ _, hname⟩
    · exact ⟨v, by simpa only [Function.update_of_ne hjk] using hv, hname⟩
  spawned := by
    intro i m j hj
    obtain ⟨v, hv, hnot, hslots⟩ := h.spawned i m j hj
    by_cases hjk : j = k
    · subst hjk
      rw [hworker] at hv
      cases hv
      exact ⟨_, Function.update_self _ _ _, hnot, hslots⟩
    · exact ⟨v, by simpa only [Function.update_of_ne hjk] using hv, hnot, hslots⟩
  spawned_once := h.spawned_once

/-- Every step keeps the account. -/
theorem step [DecidableEq N] (h : Accounted p) {p' : Pool N} (hstep : Step p p') : Accounted p' := by
  cases hstep with
  | stay => exact h
  | release i name done hhold hleft => exact h.release hhold hleft
  | retire i name c hhold hslot hrun =>
    refine h.withdraw hhold hslot (Nat.le_succ _) ?_
    rintro d ⟨rfl⟩
    exact ⟨rfl, rfl, Nat.le_refl _, Nat.lt_succ_self _⟩
  | remove i name c hhold hslot =>
    refine h.withdraw hhold hslot (Nat.le_refl _) ?_
    intro d hd
    cases hd
  | spawn i name k hhold hnew => exact h.spawn hhold hnew
  | store i name k w hhold hworker hlive hidle => exact h.store hhold hworker hlive hidle
  | addStopped name hslot => exact h.addStopped hslot
  | abandon i name k w hhold hworker => exact h.abandon hhold hworker
  | leave k w hworker hwhy => exact h.leave hworker hwhy

/-! ## With no worker in hand -/

/-- A name without a running slot has no live worker. -/
theorem unserved (h : Accounted p) (hhold : ∀ i k, (p.hold i).worker ≠ some (name, k))
    (hidle : ∀ c, p.slot name = some c → c.running = false) {k : Nat} {w : Worker N} (hw : p.worker k = some w)
    (hname : w.name = name) : w.live = false := by
  cases hl : w.live with
  | false => rfl
  | true =>
    subst hname
    rcases h.live k w hw hl with ⟨c, hc, hrun, -⟩ | ⟨i, hi⟩
    · rw [hidle c hc] at hrun
      cases hrun
    · exact absurd hi (hhold i k)

/-- A running slot has exactly one live worker, the one it refers to. -/
theorem served (h : Accounted p) (hhold : ∀ i k, (p.hold i).worker ≠ some (name, k)) {c : Slot}
    (hslot : p.slot name = some c) (hrun : c.running) :
    ∃ k w, c.done = some k ∧ p.worker k = some w ∧ w.name = name ∧ w.live ∧ w.token = c.cancel ∧
      ∀ j v, p.worker j = some v → v.name = name → v.live → j = k := by
  obtain ⟨k, w, hdone, hw, hl, htoken, -⟩ := h.running name c hslot hrun
  obtain ⟨w', hw', hname⟩ := h.slot_done name c k hslot hdone
  rw [hw] at hw'
  cases hw'
  refine ⟨k, w, hdone, hw, hname, hl, htoken, ?_⟩
  rintro j v hv rfl hlive
  rcases h.live j v hv hlive with ⟨c', hc', -, hdone'⟩ | ⟨i, hi⟩
  · rw [hslot] at hc'
    cases hc'
    rw [hdone] at hdone'
    exact (Option.some.inj hdone').symm
  · exact absurd hi (hhold i j)

end Accounted

end Eggchaos.Lib.Workers
