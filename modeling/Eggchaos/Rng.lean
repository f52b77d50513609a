import Eggchaos.Plan
/-!
# Deterministic randomness

The SplitMix64 streams of `rng.rs`: seed derivation and the draws fault
decisions are made of. All arithmetic wraps at 64 bits, as the source's
`Wrapping` does.
-/

namespace Eggchaos
open Lib

def splitmix (value : UInt64) : UInt64 :=
  let value := value + 0x9e3779b97f4a7c15
  let z := (value ^^^ (value >>> 30)) * 0xbf58476d1ce4e5b9
  let z := (z ^^^ (z >>> 27)) * 0x94d049bb133111eb
  z ^^^ (z >>> 31)

/-- `u64::rotate_left` by less than 64 bits. -/
def rotateLeft (value : UInt64) (n : UInt64) : UInt64 := (value <<< n) ||| (value >>> (64 - n))

/-- The bytes of a string, as `str::as_bytes` gives them. -/
def utf8Bytes (s : String) : List UInt8 := s.toUTF8.data.toList

/-- Mix the bytes of a name into a seed. -/
def mixBytes (h : UInt64) (bytes : List UInt8) : UInt64 :=
  bytes.foldl (fun h byte =>
    let h := h + (byte.toUInt64 + 0x100)
    let h := h ^^^ (h >>> 30)
    h * 0xbf58476d1ce4e5b9) h

def deriveSeed (runSeed : UInt64) (proxy : String) (connectionKey : UInt64) (direction : Direction)
    (fault : FaultId) : UInt64 :=
  let h := mixBytes (runSeed + 0x9e3779b97f4a7c15) (utf8Bytes proxy)
  let h := h + 0xff
  let h := h ^^^ (h >>> 29)
  let h := h * 0xbf58476d1ce4e5b9
  let h := h + (rotateLeft proxy.utf8ByteSize.toUInt64 19 + 0xa0)
  let h := h ^^^ (h >>> 27)
  let h := h * 0x94d049bb133111eb
  let h := mixBytes h (utf8Bytes fault.value)
  let h := h + (rotateLeft fault.value.utf8ByteSize.toUInt64 23 + 0xb0)
  let h := h ^^^ (h >>> 27)
  let h := h * 0x94d049bb133111eb
  let h := h + rotateLeft connectionKey 17
  let h := h + match direction with
    | .upstream => 0x5550
    | .downstream => 0x444e
  splitmix h

def deriveStreamLossSeed (runSeed : UInt64) (proxy : String) (connectionKey : UInt64) (direction : Direction)
    (fault : FaultId) : UInt64 :=
  deriveSeed runSeed proxy connectionKey direction fault + 0x57524d5f4348554e

/-- `u64::from_le_bytes` of a chunk of at most eight bytes, padded with zeros. -/
def fromLeBytes (bytes : List UInt8) : UInt64 :=
  bytes.foldr (fun byte value => (value <<< 8) ||| byte.toUInt64) 0

/-- `derive_schedule_policy_seed`. The three sums inside `Wrapping(..)` are plain
additions in the source. -/
def deriveSchedulePolicySeed (scenarioSeed executionKey : UInt64) (fingerprint : List UInt8)
    (compiledEventIndex : UInt64) : UInt64 :=
  let h := scenarioSeed + 0x9e3779b97f4a7c15
  let h := h + (rotateLeft executionKey 7 + 0x100)
  let h := h ^^^ (h >>> 29)
  let h := h * 0xbf58476d1ce4e5b9
  let h := (fingerprint.toChunks 8).foldl (fun h chunk =>
    let h := h + (rotateLeft (fromLeBytes chunk) 11 + 0x300)
    let h := h ^^^ (h >>> 23)
    h * 0x94d049bb133111eb) h
  let h := h + (rotateLeft compiledEventIndex 23 + 0x400)
  let h := h ^^^ (h >>> 27)
  let h := h * 0x94d049bb133111eb
  splitmix (h ^^^ 0x547c0dec0dec0dec)

example : deriveSchedulePolicySeed 7 1
    [0x9c, 0x4f, 0x83, 0x42, 0xfe, 0x16, 0xa1, 0x07, 0xd2, 0x10, 0x70, 0x7f, 0x82, 0x2b, 0x42, 0x71, 0x01, 0xee, 0x55,
      0x9c, 0x18, 0xab, 0x2d, 0xe3, 0x7c, 0x6f, 0x4d, 0x14, 0x29, 0xc7, 0x73, 0x90] 0 = 11956359045004790358 := by
  decide

structure DeterministicRng where
  state : UInt64
deriving DecidableEq, Repr

namespace DeterministicRng

def new (seed : UInt64) : DeterministicRng := ⟨seed⟩

def nextU64 (rng : DeterministicRng) : UInt64 × DeterministicRng :=
  let state := rng.state + 0x9e3779b97f4a7c15
  (splitmix state, ⟨state⟩)

/-- A value in `[0, upper)`, or zero for an empty range; it always advances. -/
def below (rng : DeterministicRng) (upper : Nat) : Nat × DeterministicRng :=
  let (value, rng) := rng.nextU64
  (if upper = 0 then 0 else value.toNat % upper, rng)

/-- A biased coin. Only a probability strictly between zero and one draws; the
product with `u64::MAX as f64`, which is `2 ^ 64`, is exact and the cast
truncates. -/
def bernoulli (rng : DeterministicRng) (probability : ℚ) : Bool × DeterministicRng :=
  if probability ≤ 0 then (false, rng)
  else if 1 ≤ probability then (true, rng)
  else
    let threshold := ⌊probability * 2 ^ 64⌋.toNat
    let (value, rng) := rng.nextU64
    (decide (value.toNat < threshold), rng)

theorem below_lt (rng : DeterministicRng) {upper : Nat} (h : 0 < upper) : (rng.below upper).1 < upper := by
  have h0 : upper ≠ 0 := Nat.pos_iff_ne_zero.1 h
  simpa [below, h0] using Nat.mod_lt _ h

end DeterministicRng

end Eggchaos
