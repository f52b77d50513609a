import Eggchaos.Datagram
import Mathlib.Algebra.BigOperators.Group.Finset.Piecewise
import Mathlib.Algebra.Order.BigOperators.Group.Finset
import Mathlib.Logic.Equiv.Basic
/-!
# Payload corruption

`PayloadCorrupt` picks its positions by swapping each with a drawn later one, in
the payload itself, and flips a drawn bit of the byte that arrives there. The
bytes it has moved stay moved.

`turns_byte` is the payload after any number of turns: a byte of the original,
at its `source`, with a bit flipped if its turn is over. What the stage is for is
`Corrupts`; `corrupts_iff` says for which payloads and draws it does that.
-/

namespace Eggchaos
open Lib

/-! ## The draws of a stage -/

namespace DeterministicRng

/-- The stream after `k` draws. -/
def after (rng : DeterministicRng) : Nat → DeterministicRng
  | 0 => rng
  | k + 1 => (rng.after k).nextU64.2

end DeterministicRng

/-- The position turn `i` swaps position `i` with, in `size` bytes. -/
def selected (size : Nat) (rng : DeterministicRng) (i : Nat) : Nat := i + ((rng.after (2 * i)).below (size - i)).1

/-- The bit turn `i` flips. -/
def drawnBit (rng : DeterministicRng) (i : Nat) : Nat := ((rng.after (2 * i + 1)).below 8).1

/-- Where the byte at `p` comes from after `k` turns. -/
def source (size : Nat) (rng : DeterministicRng) : Nat → Nat → Nat
  | 0, p => p
  | k + 1, p => source size rng k (Equiv.swap k (selected size rng k) p)

/-- A byte with one bit set. -/
def oneBit (bit : Nat) : Byte := 1 <<< bit.toUInt8

/-- What the first `k` turns flip at `p`. -/
def flipped (rng : DeterministicRng) (k p : Nat) : Byte := if p < k then oneBit (drawnBit rng p) else 0

theorem selected_lt {size i : Nat} (rng : DeterministicRng) (h : i < size) : selected size rng i < size := by
  have := (rng.after (2 * i)).below_lt (show 0 < size - i by omega)
  simp only [selected]
  omega

theorem le_selected (size : Nat) (rng : DeterministicRng) (i : Nat) : i ≤ selected size rng i := Nat.le_add_right ..

theorem drawnBit_lt (rng : DeterministicRng) (i : Nat) : drawnBit rng i < 8 :=
  DeterministicRng.below_lt _ (by decide)

/-! ## The payload turn by turn -/

/-- The loop of the stage after `k` turns. -/
def turns (bytes : List Byte) (rng : DeterministicRng) (k : Nat) : List Byte × DeterministicRng :=
  (List.range k).foldl (fun (v, rng) i => corruptAt i v rng) (bytes, rng)

theorem corrupted_eq_turns (count : Nat) (bytes : List Byte) (rng : DeterministicRng) :
    corrupted count bytes rng = (turns bytes rng (min count bytes.length)).1 :=
  rfl

theorem turns_succ (bytes : List Byte) (rng : DeterministicRng) (k : Nat) :
    turns bytes rng (k + 1) = corruptAt k (turns bytes rng k).1 (turns bytes rng k).2 := by
  simp only [turns, List.range_succ, List.foldl_append, List.foldl_cons, List.foldl_nil]

theorem turns_length (bytes : List Byte) (rng : DeterministicRng) (k : Nat) :
    (turns bytes rng k).1.length = bytes.length := by
  induction k with
  | zero => rfl
  | succ k ih => simp only [turns_succ, corruptAt, List.length_set, ih]

/-- Every turn draws twice. -/
theorem turns_rng (bytes : List Byte) (rng : DeterministicRng) (k : Nat) :
    (turns bytes rng k).2 = rng.after (2 * k) := by
  induction k with
  | zero => rfl
  | succ k ih =>
    rw [turns_succ, ih]
    rfl

theorem getD_set {v : List Byte} {i : Nat} (x : Byte) (hi : i < v.length) (p : Nat) :
    (v.set i x).getD p 0 = if p = i then x else v.getD p 0 := by
  by_cases hp : p = i
  · subst hp
    simp [hi]
  · have hp' : ¬i = p := fun h => hp h.symm
    simp [hp, hp']

/-- One turn: a swap, then a flip at the position whose turn it is. -/
theorem corruptAt_byte {v : List Byte} {i : Nat} (rng : DeterministicRng) (hi : i < v.length) (p : Nat) :
    (corruptAt i v rng).1.getD p 0 =
      v.getD (Equiv.swap i (i + (rng.below (v.length - i)).1) p) 0 ^^^
        (if p = i then oneBit (rng.nextU64.2.below 8).1 else 0) := by
  have hs : i + (rng.below (v.length - i)).1 < v.length := by
    have := rng.below_lt (show 0 < v.length - i by omega)
    omega
  have hdraw : (rng.below (v.length - i)).2 = rng.nextU64.2 := rfl
  simp only [corruptAt, hdraw]
  generalize i + (rng.below (v.length - i)).1 = s at hs
  have hswapped (q : Nat) : ((v.set i (v.getD s 0)).set s (v.getD i 0)).getD q 0 = v.getD (Equiv.swap i s q) 0 := by
    rw [getD_set _ (by simpa using hs), getD_set _ hi, Equiv.swap_apply_def]
    split_ifs <;> simp_all
  rw [getD_set _ (by simpa using hi), hswapped, hswapped]
  split_ifs with hpi
  · rw [hpi, oneBit]
  · rw [UInt8.xor_zero]

/-- After `k` turns each byte is one of the original's, with a bit flipped where
a turn has been. -/
theorem turns_byte (bytes : List Byte) (rng : DeterministicRng) {k : Nat} (hk : k ≤ bytes.length) (p : Nat) :
    (turns bytes rng k).1.getD p 0 = bytes.getD (source bytes.length rng k p) 0 ^^^ flipped rng k p := by
  induction k generalizing p with
  | zero => simp [turns, source, flipped]
  | succ k ih =>
    have hlen := turns_length bytes rng k
    rw [turns_succ, corruptAt_byte _ (by omega), turns_rng, hlen, ih (by omega), source]
    change bytes.getD (source _ rng k (Equiv.swap k (selected bytes.length rng k) p)) 0 ^^^
      flipped rng k (Equiv.swap k (selected bytes.length rng k) p) ^^^
        (if p = k then oneBit (drawnBit rng k) else 0) = _
    -- Neither swapped position has had its turn.
    have hturn : flipped rng k (Equiv.swap k (selected bytes.length rng k) p) ^^^
        (if p = k then oneBit (drawnBit rng k) else 0) = flipped rng (k + 1) p := by
      have hle := le_selected bytes.length rng k
      simp only [flipped, Equiv.swap_apply_def]
      split_ifs <;> first | omega | simp_all
    rw [UInt8.xor_assoc, hturn]

/-- A byte whose turn is over stays. -/
theorem turns_settled (bytes : List Byte) (rng : DeterministicRng) {k n p : Nat} (hpk : p < k) (hkn : k ≤ n)
    (hn : n ≤ bytes.length) : (turns bytes rng n).1.getD p 0 = (turns bytes rng k).1.getD p 0 := by
  induction n, hkn using Nat.le_induction with
  | base => rfl
  | succ n hkn ih =>
    have hle := le_selected bytes.length rng n
    have hmoved : Equiv.swap n (selected bytes.length rng n) p = p :=
      Equiv.swap_apply_of_ne_of_ne (by omega) (by omega)
    rw [← ih (by omega), turns_byte _ _ hn, turns_byte _ _ (by omega), source, hmoved]
    simp only [flipped, show p < n by omega, show p < n + 1 by omega, if_true]

/-! ## What the stage is for -/

/-- Corruption as announced: in place, in at most so many bytes, one bit each. -/
structure Corrupts (count : Nat) (bytes out : List Byte) : Prop where
  length : out.length = bytes.length
  few : ((Finset.range bytes.length).filter fun p => out.getD p 0 ≠ bytes.getD p 0).card ≤ min count bytes.length
  single : ∀ p < bytes.length, out.getD p 0 ≠ bytes.getD p 0 →
    ∃ bit < 8, out.getD p 0 = bytes.getD p 0 ^^^ oneBit bit

/-- What the draws would put in the place of a byte, as its difference to that
byte. -/
def moved (count : Nat) (bytes : List Byte) (rng : DeterministicRng) (p : Nat) : Byte :=
  bytes.getD (source bytes.length rng (min count bytes.length) p) 0 ^^^ bytes.getD p 0

/-- The byte moved to a position in turn is the one that was there, or differs
from it in the drawn bit, or in that and one more; the byte moved to any other
position differs in one bit at most. -/
def Harmless (count : Nat) (bytes : List Byte) (rng : DeterministicRng) : Prop :=
  ∀ p < bytes.length,
    if p < min count bytes.length then
      moved count bytes rng p = 0 ∨ moved count bytes rng p = oneBit (drawnBit rng p) ∨
        ∃ bit < 8, moved count bytes rng p = oneBit (drawnBit rng p) ^^^ oneBit bit
    else moved count bytes rng p = 0 ∨ ∃ bit < 8, moved count bytes rng p = oneBit bit

/-! ## Parity

A byte of one bit is odd, and an odd difference is one: parity counts what
the single-bit conditions leave open. -/

def parity (b : Byte) : Bool := (List.range 8).foldr (fun bit odd => b.toNat.testBit bit ^^ odd) false

theorem parity_xor (a b : Byte) : parity (a ^^^ b) = (parity a ^^ parity b) := by
  simp only [parity, UInt8.toNat_xor, Nat.testBit_xor]
  induction List.range 8 with
  | nil => rfl
  | cons bit bits ih =>
    rw [List.foldr_cons, List.foldr_cons, List.foldr_cons, ih]
    simp only [Bool.xor_assoc, Bool.xor_left_comm]

theorem parity_oneBit {bit : Nat} (h : bit < 8) : parity (oneBit bit) = true := by
  have hall : ∀ b < 8, parity (oneBit b) = true := by decide
  exact hall bit h

/-- Bytes that differ in one bit are of different parity. -/
theorem parity_ne {a b : Byte} {bit : Nat} (hbit : bit < 8) (h : a = b ^^^ oneBit bit) : parity a ≠ parity b := by
  rw [h, parity_xor, parity_oneBit hbit]
  simp

/-! ## How many bytes change -/

/-- A byte in turn no more counts when it has changed, one still to come when
its parity has. -/
def weight (bytes v : List Byte) (k p : Nat) : Nat :=
  if p < k then if v.getD p 0 ≠ bytes.getD p 0 then 1 else 0
  else if parity (v.getD p 0) ≠ parity (bytes.getD p 0) then 1 else 0

theorem weight_le_one (bytes v : List Byte) (k p : Nat) : weight bytes v k p ≤ 1 := by
  simp only [weight]
  split_ifs <;> omega

/-- Two sums that agree off a part compare as they do on it. -/
theorem sum_le_of_part {S T : Finset Nat} {f g : Nat → Nat} {c : Nat} (hsub : T ⊆ S) (hoff : ∀ p ∈ S, p ∉ T → g p = f p)
    (hpart : ∑ p ∈ T, g p ≤ ∑ p ∈ T, f p + c) : ∑ p ∈ S, g p ≤ ∑ p ∈ S, f p + c := by
  have hrest : ∑ p ∈ S \ T, g p = ∑ p ∈ S \ T, f p :=
    Finset.sum_congr rfl fun p hp => hoff p (Finset.mem_sdiff.1 hp).1 (Finset.mem_sdiff.1 hp).2
  rw [← Finset.sum_sdiff hsub, ← Finset.sum_sdiff hsub, hrest]
  omega

/-- A turn adds one at most, if the byte it settles differs in one bit at most. -/
theorem weight_turn {bytes : List Byte} {rng : DeterministicRng} {k : Nat} (hk : k < bytes.length)
    (hsingle : (turns bytes rng (k + 1)).1.getD k 0 ≠ bytes.getD k 0 →
      ∃ bit < 8, (turns bytes rng (k + 1)).1.getD k 0 = bytes.getD k 0 ^^^ oneBit bit) :
    ∑ p ∈ Finset.range bytes.length, weight bytes (turns bytes rng (k + 1)).1 (k + 1) p ≤
      ∑ p ∈ Finset.range bytes.length, weight bytes (turns bytes rng k).1 k p + 1 := by
  have hs := selected_lt rng hk
  have hle := le_selected bytes.length rng k
  have hturn (p : Nat) : (turns bytes rng (k + 1)).1.getD p 0 =
      (turns bytes rng k).1.getD (Equiv.swap k (selected bytes.length rng k) p) 0 ^^^
        (if p = k then oneBit (drawnBit rng k) else 0) := by
    rw [turns_succ, corruptAt_byte _ (by rw [turns_length]; exact hk), turns_rng, turns_length]
    rfl
  generalize selected bytes.length rng k = s at *
  generalize (turns bytes rng (k + 1)).1 = v' at *
  generalize (turns bytes rng k).1 = v at *
  apply sum_le_of_part (T := {k, s})
  · intro p hp
    rcases Finset.mem_insert.1 hp with rfl | hp
    · exact Finset.mem_range.2 hk
    · exact Finset.mem_range.2 (Finset.mem_singleton.1 hp ▸ hs)
  · intro p _ hp
    obtain ⟨hpk, hps⟩ : p ≠ k ∧ p ≠ s := by simpa using hp
    have hsame : v'.getD p 0 = v.getD p 0 := by
      rw [hturn, Equiv.swap_apply_of_ne_of_ne hpk hps, if_neg hpk, UInt8.xor_zero]
    simp only [weight, hsame, show p < k + 1 ↔ p < k by omega]
  · by_cases hks : s = k
    · subst hks
      have := weight_le_one bytes v' (s + 1) s
      simp only [Finset.pair_eq_singleton, Finset.sum_singleton]
      omega
    · rw [Finset.sum_pair (Ne.symm hks), Finset.sum_pair (Ne.symm hks)]
      have hsettled : v'.getD k 0 = v.getD s 0 ^^^ oneBit (drawnBit rng k) := by
        rw [hturn, Equiv.swap_apply_left, if_pos rfl]
      have hpushed : v'.getD s 0 = v.getD k 0 := by
        rw [hturn, Equiv.swap_apply_right, if_neg hks, UInt8.xor_zero]
      simp only [weight, hpushed, show k < k + 1 by omega, show ¬s < k + 1 by omega, show ¬k < k by omega,
        show ¬s < k by omega, if_true, if_false]
      by_cases hsame : v'.getD k 0 = bytes.getD k 0
      · rw [if_neg (by simpa using hsame)]
        split_ifs <;> omega
      · -- The byte that arrived had the parity of the one it replaces.
        have heven : parity (v.getD s 0) = parity (bytes.getD k 0) := by
          obtain ⟨bit, hbit, hone⟩ := hsingle hsame
          have hodd := parity_ne hbit hone
          rw [hsettled, parity_xor, parity_oneBit (drawnBit_lt rng k)] at hodd
          simpa using hodd
        rw [heven, if_pos hsame]
        generalize parity (v.getD k 0) = a
        generalize parity (bytes.getD s 0) = b
        generalize parity (bytes.getD k 0) = c
        revert a b c
        decide

/-- Bytes that change by single bits are no more than the turns. -/
theorem weight_le {bytes : List Byte} {rng : DeterministicRng} {n : Nat} (hn : n ≤ bytes.length)
    (hsingle : ∀ p < bytes.length, (turns bytes rng n).1.getD p 0 ≠ bytes.getD p 0 →
      ∃ bit < 8, (turns bytes rng n).1.getD p 0 = bytes.getD p 0 ^^^ oneBit bit) {k : Nat} (hk : k ≤ n) :
    ∑ p ∈ Finset.range bytes.length, weight bytes (turns bytes rng k).1 k p ≤ k := by
  induction k with
  | zero => simp [weight, turns]
  | succ k ih =>
    have hturn := hsingle k (by omega)
    rw [turns_settled bytes rng (show k < k + 1 by omega) hk hn] at hturn
    exact Nat.le_trans (weight_turn (by omega) hturn) (by have := ih (by omega); omega)

/-- The number of changed bytes needs no condition of its own. -/
theorem few_of_single {bytes : List Byte} {rng : DeterministicRng} {n : Nat} (hn : n ≤ bytes.length)
    (hsingle : ∀ p < bytes.length, (turns bytes rng n).1.getD p 0 ≠ bytes.getD p 0 →
      ∃ bit < 8, (turns bytes rng n).1.getD p 0 = bytes.getD p 0 ^^^ oneBit bit) :
    ((Finset.range bytes.length).filter fun p => (turns bytes rng n).1.getD p 0 ≠ bytes.getD p 0).card ≤ n := by
  refine Nat.le_trans ?_ (weight_le hn hsingle (Nat.le_refl n))
  rw [Finset.card_filter]
  refine Finset.sum_le_sum fun p hp => ?_
  simp only [weight]
  split_ifs with hne hpn hodd <;> try omega
  obtain ⟨bit, hbit, hone⟩ := hsingle p (Finset.mem_range.1 hp) hne
  exact absurd (parity_ne hbit hone) hodd

/-! ## When the stage does what it is for -/

/-- The stage adds to a byte what the draws move there and what its turn flips. -/
theorem corrupted_byte (count : Nat) (bytes : List Byte) (rng : DeterministicRng) (p : Nat) :
    (corrupted count bytes rng).getD p 0 =
      bytes.getD p 0 ^^^ (moved count bytes rng p ^^^ flipped rng (min count bytes.length) p) := by
  rw [corrupted_eq_turns, turns_byte _ _ (Nat.min_le_right ..), moved, ← UInt8.xor_assoc, UInt8.xor_comm (bytes.getD p 0),
    UInt8.xor_assoc, UInt8.xor_assoc, ← UInt8.xor_assoc (bytes.getD p 0) (bytes.getD p 0), UInt8.xor_self, UInt8.zero_xor]

theorem xor_eq_self_iff (a d : Byte) : a ^^^ d = a ↔ d = 0 := by
  rw [← UInt8.xor_right_inj a (b := 0), UInt8.xor_zero]

theorem xor_eq_iff (m d x : Byte) : m ^^^ d = x ↔ m = d ^^^ x := by
  constructor
  · rintro rfl
    rw [UInt8.xor_comm m, ← UInt8.xor_assoc, UInt8.xor_self, UInt8.zero_xor]
  · rintro rfl
    rw [UInt8.xor_comm, ← UInt8.xor_assoc, UInt8.xor_self, UInt8.zero_xor]

theorem corrupts_iff (count : Nat) (bytes : List Byte) (rng : DeterministicRng) :
    Corrupts count bytes (corrupted count bytes rng) ↔ Harmless count bytes rng := by
  have hsingle : (∀ p < bytes.length, (corrupted count bytes rng).getD p 0 ≠ bytes.getD p 0 →
      ∃ bit < 8, (corrupted count bytes rng).getD p 0 = bytes.getD p 0 ^^^ oneBit bit) ↔ Harmless count bytes rng := by
    refine forall_congr' fun p => forall_congr' fun hp => ?_
    simp only [corrupted_byte, ne_eq, xor_eq_self_iff, UInt8.xor_right_inj, flipped]
    generalize moved count bytes rng p = m
    split_ifs with hturn
    · -- The flip of the turn is part of the difference.
      simp only [xor_eq_iff, UInt8.xor_zero]
      constructor
      · intro h
        by_cases hm : m = oneBit (drawnBit rng p)
        · exact .inr (.inl hm)
        · exact .inr (.inr (h hm))
      · rintro (rfl | rfl | h) hne
        · exact ⟨drawnBit rng p, drawnBit_lt rng p, (UInt8.xor_self).symm⟩
        · exact absurd rfl hne
        · exact h
    · rw [UInt8.xor_zero]
      exact ⟨fun h => or_iff_not_imp_left.2 h, fun h => or_iff_not_imp_left.1 h⟩
  constructor
  · intro h
    exact hsingle.1 h.single
  · intro h
    have hone := hsingle.2 h
    refine ⟨?_, few_of_single (Nat.min_le_right ..) hone, hone⟩
    rw [corrupted_eq_turns, turns_length]

/-- The stage makes one candidate of one, of the same copy and delay. -/
theorem DatagramDirectionEngine.apply_corrupt (e : DatagramDirectionEngine) (now : Nat) (id : FaultId)
    (probability : Probability) (count : NonZeroU64) (rng : DeterministicRng) (nextCopy : Nat) (c : Staged) :
    (e.apply now ⟨id, probability, .payloadCorrupt count⟩ rng nextCopy c).1 =
      [{ c with bytes := corrupted count.get c.bytes rng }] := by
  simp only [DatagramDirectionEngine.apply]
  split
  · next hempty =>
    rw [hempty, corrupted_eq_turns, List.length_nil, Nat.min_zero, ← hempty]
    rfl
  · rfl

/-- An activated corruption stage does what it is for exactly when the bytes it
moves are harmless where they arrive. -/
theorem stage_corrupts_iff (e : DatagramDirectionEngine) (now : Nat) (id : FaultId) (probability : Probability)
    (count : NonZeroU64) (rng : DeterministicRng) (nextCopy : Nat) (c : Staged) :
    (∀ out ∈ (e.apply now ⟨id, probability, .payloadCorrupt count⟩ rng nextCopy c).1,
        Corrupts count.get c.bytes out.bytes) ↔
      Harmless count.get c.bytes rng := by
  rw [DatagramDirectionEngine.apply_corrupt, List.forall_mem_singleton]
  exact corrupts_iff count.get c.bytes rng

/-- One byte to corrupt of `[0, 255]`: both change, the second in all its bits. -/
theorem corruption_moves_bytes :
    corrupted 1 [0, 255] ⟨1⟩ = [191, 0] ∧ ¬Corrupts 1 [0, 255] (corrupted 1 [0, 255] ⟨1⟩) := by
  have hout : corrupted 1 [0, 255] ⟨1⟩ = [191, 0] := by decide
  refine ⟨hout, fun h => ?_⟩
  have hfew := h.few
  rw [hout] at hfew
  exact absurd hfew (by decide)

end Eggchaos
