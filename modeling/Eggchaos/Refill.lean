import Eggchaos.TokenBucket
/-!
# What frequent refills lose

Every refill divides the nanobytes that have accrued by 1000, drops the
remainder and moves `last`, so the remainder is not there for the next one. A
bucket polled often therefore holds less than one refilled once over the same
time. `refills_eq_iff` says when the two agree: while the dropped remainders
stay below one microtoken together, or once the bucket is full regardless.
-/

namespace Eggchaos
open Lib

namespace TokenBucket

/-- The nanobytes dropped by the refills of a bucket last refilled at `last`. -/
def dropped (rate : Nat) : Nat → List Nat → Nat
  | _, [] => 0
  | last, now :: times => (now - last) * rate % 1000 + dropped rate now times

/-! ## One refill -/

/-- The saturating steps of `refill` never show: they end past any capacity. -/
theorem refill_tokens {b : TokenBucket} {burst : NonZeroU64} (hcap : b.capacityMicro = 1000000 * burst.get)
    (htokens : b.tokensMicro ≤ b.capacityMicro) (now : Nat) :
    (b.refill now).tokensMicro = min (b.tokensMicro + (now - b.last) * b.rate / 1000) b.capacityMicro := by
  have hburst : b.capacityMicro ≤ 1000000 * u64Max := hcap ▸ Nat.mul_le_mul_left _ burst.le_max
  have hlarge : 1000000 * u64Max ≤ u128Max / 1000 := by decide
  simp only [refill, satMul128, satAdd128]
  generalize u128Max = largest at *
  split
  · generalize (now - b.last) * b.rate = accrued
    dsimp only
    rcases Nat.le_total accrued largest with hexact | hsaturated
    · rw [Nat.min_eq_left hexact]
      omega
    · -- A saturated product fills the bucket, as the exact one does.
      have hfull : largest / 1000 ≤ accrued / 1000 := Nat.div_le_div_right hsaturated
      rw [Nat.min_eq_right hsaturated]
      omega
  · next hnone =>
    rw [Nat.eq_zero_of_not_pos hnone, Nat.zero_mul, Nat.zero_div, Nat.add_zero, Nat.min_eq_left htokens]

theorem refill_tokens_le {b : TokenBucket} (htokens : b.tokensMicro ≤ b.capacityMicro) (now : Nat) :
    (b.refill now).tokensMicro ≤ (b.refill now).capacityMicro := by
  rw [refill_capacity]
  exact b.available_le now htokens

/-! ## A run of refills -/

/-- Refills that do not reach the capacity: what they credit and what they drop
add up to what has accrued. -/
theorem refills_account {burst : NonZeroU64} {b : TokenBucket} {times : List Nat}
    (hcap : b.capacityMicro = 1000000 * burst.get) (htokens : b.tokensMicro ≤ b.capacityMicro)
    (hmono : (b.last :: times).Pairwise (· ≤ ·))
    (hbelow : Along refill (fun b now => (b.refill now).tokensMicro < b.capacityMicro) b times) :
    b.last ≤ (run refill b times).last ∧
      1000 * (run refill b times).tokensMicro + dropped b.rate b.last times =
        1000 * b.tokensMicro + ((run refill b times).last - b.last) * b.rate := by
  induction times generalizing b with
  | nil => simp [dropped]
  | cons now times ih =>
    obtain ⟨hle, hrest⟩ := List.pairwise_cons.1 hmono
    have hnow := hle now List.mem_cons_self
    have hlast := b.refill_last hnow
    obtain ⟨hfirst, hrun⟩ := hbelow
    obtain ⟨hforth, hsum⟩ := ih (b.refill_capacity now ▸ hcap) (refill_tokens_le htokens now) (hlast.symm ▸ hrest) hrun
    rw [hlast, refill_rate] at hsum
    rw [hlast] at hforth
    have hone := refill_tokens hcap htokens now
    have hexact : (b.refill now).tokensMicro = b.tokensMicro + (now - b.last) * b.rate / 1000 := by omega
    have hdiv := Nat.div_add_mod ((now - b.last) * b.rate) 1000
    simp only [run_cons, dropped]
    refine ⟨hnow.trans hforth, ?_⟩
    have hsplit : (run refill (b.refill now) times).last - b.last =
        (now - b.last) + ((run refill (b.refill now) times).last - now) := by omega
    rw [hsplit, Nat.add_mul]
    omega

/-- What a run of refills leaves alone. -/
theorem refills_frame {b : TokenBucket} {before : List Nat} {now : Nat} (htokens : b.tokensMicro ≤ b.capacityMicro)
    (hmono : (b.last :: (before ++ [now])).Pairwise (· ≤ ·)) :
    (run refill b before).capacityMicro = b.capacityMicro ∧
      (run refill b before).tokensMicro ≤ (run refill b before).capacityMicro ∧
      (run refill b before).rate = b.rate ∧ (run refill b before).last ≤ now := by
  induction before generalizing b with
  | nil => exact ⟨rfl, htokens, rfl, (List.pairwise_cons.1 hmono).1 now List.mem_cons_self⟩
  | cons next before ih =>
    obtain ⟨hle, hrest⟩ := List.pairwise_cons.1 hmono
    have hlast := b.refill_last (hle next List.mem_cons_self)
    obtain ⟨hc, ht, hr, hnow⟩ := ih (refill_tokens_le htokens next) (hlast.symm ▸ hrest)
    exact ⟨hc.trans (b.refill_capacity next), ht, hr.trans (b.refill_rate next), hnow⟩

/-- The last refill drops what is left of the time since the one before it. -/
theorem dropped_snoc {b : TokenBucket} {before : List Nat} {now : Nat}
    (hmono : (b.last :: (before ++ [now])).Pairwise (· ≤ ·)) :
    dropped b.rate b.last (before ++ [now]) =
      dropped b.rate b.last before + (now - (run refill b before).last) * b.rate % 1000 := by
  induction before generalizing b with
  | nil => simp [dropped]
  | cons next before ih =>
    obtain ⟨hle, hrest⟩ := List.pairwise_cons.1 hmono
    have hlast := b.refill_last (hle next List.mem_cons_self)
    have htail := ih (b := b.refill next) (hlast.symm ▸ hrest)
    rw [hlast, refill_rate] at htail
    rw [List.cons_append, dropped, dropped, htail, run_cons, Nat.add_assoc]

/-- Where the refills before the last one leave the bucket below its capacity,
the last one leaves what a single refill at that instant would have exactly if
the remainders dropped on the way are less than a microtoken together, or the
bucket fills up in spite of them. -/
theorem refills_eq_iff (burst : NonZeroU64) (b : TokenBucket) (before : List Nat) (now : Nat)
    (hcap : b.capacityMicro = 1000000 * burst.get) (htokens : b.tokensMicro ≤ b.capacityMicro)
    (hmono : (b.last :: (before ++ [now])).Pairwise (· ≤ ·))
    (hbelow : Along refill (fun b now => (b.refill now).tokensMicro < b.capacityMicro) b before) :
    (run refill b (before ++ [now])).tokensMicro = (b.refill now).tokensMicro ↔
      dropped b.rate b.last (before ++ [now]) < 1000 ∨
        1000 * b.capacityMicro + dropped b.rate b.last (before ++ [now]) ≤
          1000 * b.tokensMicro + (now - b.last) * b.rate := by
  have hbefore : (b.last :: before).Pairwise (· ≤ ·) :=
    hmono.sublist ((List.prefix_append before [now]).sublist.cons_cons b.last)
  obtain ⟨hforth, hsum⟩ := refills_account hcap htokens hbefore hbelow
  obtain ⟨hc, ht, hr, hnow⟩ := refills_frame htokens hmono
  have hlast := refill_tokens (hc ▸ hcap) ht now
  have honce := refill_tokens hcap htokens now
  rw [run_append, run_cons, run_nil, hlast, honce, dropped_snoc hmono, hc, hr]
  have hsplit : now - b.last = ((run refill b before).last - b.last) + (now - (run refill b before).last) := by omega
  rw [hsplit, Nat.add_mul]
  omega

/-- A bucket of 100 bytes a second that has sent its burst, polled twice within
10 ns: half a microtoken goes each time. -/
def emptied : TokenBucket := (new 100 100 0).step ⟨100, 0, 0, by decide⟩

/-- Polls 20 ns apart are exact at this rate. -/
theorem refills_eq_iff_exact : (run refill emptied [20, 40]).tokensMicro = (emptied.refill 40).tokensMicro :=
  (refills_eq_iff ⟨100, by decide, by decide⟩ emptied [20] 40 (by decide) (by decide) (by decide) (by decide)).2
    (Or.inl (by decide))

/-- Two refills 5 ns apart earn nothing where one after 10 ns earns a microtoken. -/
theorem refill_drifts :
    ¬ ∀ (rate burst : NonZeroU64) (b : TokenBucket) (before : List Nat) (now : Nat), b.rate = rate.get →
        b.capacityMicro = 1000000 * burst.get → b.tokensMicro ≤ b.capacityMicro →
        (b.last :: (before ++ [now])).Pairwise (· ≤ ·) →
        Along refill (fun b now => (b.refill now).tokensMicro < b.capacityMicro) b before →
        (run refill b (before ++ [now])).tokensMicro = (b.refill now).tokensMicro := by
  intro h
  have heq := h ⟨100, by decide, by decide⟩ ⟨100, by decide, by decide⟩ emptied [5] 10 (by decide) (by decide)
    (by decide) (by decide) (by decide)
  exact absurd heq (by decide)

end TokenBucket

end Eggchaos
