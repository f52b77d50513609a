import Mathlib.Logic.Function.Basic
/-!
# Mixers that lose nothing

The steps 64-bit mixing functions are made of, as injections: a right shift
xored in, and a multiplication by a unit. A mixer that is a chain of them is one.
-/

namespace Eggchaos.Lib

/-- Two sums of words agree when their differences do. -/
theorem xor_exchange (a b c d : UInt64) : a ^^^ b = c ^^^ d ↔ a ^^^ c = b ^^^ d := by
  rw [← UInt64.xor_eq_zero_iff, ← UInt64.xor_eq_zero_iff (a := a ^^^ c)]
  have h : (a ^^^ b) ^^^ (c ^^^ d) = (a ^^^ c) ^^^ (b ^^^ d) := by ac_rfl
  rw [h]

theorem eq_of_nat_xor {m n : Nat} (h : m ^^^ n = 0) : m = n := by
  calc m = m ^^^ (n ^^^ n) := by rw [Nat.xor_self, Nat.xor_zero]
    _ = (m ^^^ n) ^^^ n := (Nat.xor_assoc m n n).symm
    _ = n := by rw [h, Nat.zero_xor]

/-- A word that is its own right shift is zero. -/
theorem eq_zero_of_shiftRight {d s : UInt64} (hpos : 0 < s.toNat) (hlt : s.toNat < 64) (h : d = d >>> s) : d = 0 := by
  have hval : d.toNat = d.toNat / 2 ^ s.toNat := by
    have := congrArg UInt64.toNat h
    rwa [UInt64.toNat_shiftRight, Nat.mod_eq_of_lt hlt, Nat.shiftRight_eq_div_pow] at this
  have hzero : d.toNat = 0 := by
    by_contra hne
    exact Nat.ne_of_gt (Nat.div_lt_self (Nat.pos_of_ne_zero hne) (Nat.one_lt_two_pow (Nat.pos_iff_ne_zero.1 hpos))) hval
  exact UInt64.toNat_inj.1 hzero

/-- Xoring in a right shift can be undone. -/
theorem xorShift_injective {s : UInt64} (hpos : 0 < s.toNat) (hlt : s.toNat < 64) :
    Function.Injective fun x : UInt64 => x ^^^ (x >>> s) := by
  intro x y h
  have hshift : (x ^^^ y) = (x ^^^ y) >>> s := by
    rw [UInt64.shiftRight_xor]
    have h' : x ^^^ (x >>> s) = y ^^^ (y >>> s) := h
    calc x ^^^ y = (x ^^^ (x >>> s)) ^^^ (x >>> s) ^^^ y := by
          rw [UInt64.xor_assoc x, UInt64.xor_self, UInt64.xor_zero]
      _ = (y ^^^ (y >>> s)) ^^^ (x >>> s) ^^^ y := by rw [h']
      _ = (x >>> s) ^^^ (y >>> s) := by
          rw [UInt64.xor_comm _ y, UInt64.xor_assoc y, ← UInt64.xor_assoc y, UInt64.xor_self, UInt64.zero_xor,
            UInt64.xor_comm]
  have := eq_zero_of_shiftRight hpos hlt hshift
  exact UInt64.xor_eq_zero_iff.1 this

/-- Multiplying by a unit can be undone. -/
theorem mul_injective {c d : UInt64} (h : c * d = 1) : Function.Injective fun x : UInt64 => x * c := by
  intro x y hxy
  have hd := congrArg (· * d) hxy
  simpa only [UInt64.mul_assoc, h, UInt64.mul_one] using hd

end Eggchaos.Lib
