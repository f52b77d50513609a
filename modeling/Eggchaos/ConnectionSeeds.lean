import Eggchaos.Compile
import Eggchaos.Seeds
/-!
# Decision streams of connections

`derive_seed` mixes the run seed and the names of proxy and fault into one
word, adds the rotated connection key and a constant of the direction, and
mixes the sum. Each round is a bijection of 64-bit words, whatever the names
are, so nothing of the run seed is lost; and below `2 ^ 47` a key is rotated to
a multiple of `2 ^ 17`, past both constants.

Two connections of a proxy, or the two directions of one, therefore start every
fault from seeds of their own, and so do the engines compiled for them.
-/

namespace Eggchaos
open Lib

/-! ## What the mixing of the names keeps -/

/-- One round of `derive_seed`: add, fold the high bits in, multiply. -/
theorem round_injective (a : UInt64) {s c d : UInt64} (hpos : 0 < s.toNat) (hlt : s.toNat < 64) (hmul : c * d = 1) :
    Function.Injective fun h : UInt64 => ((h + a) ^^^ ((h + a) >>> s)) * c := by
  intro x y hxy
  have hfold := mul_injective hmul hxy
  exact (UInt64.add_left_inj a).1 (xorShift_injective hpos hlt hfold)

theorem mixBytes_injective (bytes : List UInt8) : Function.Injective fun h => mixBytes h bytes := by
  induction bytes with
  | nil => exact fun x y hxy => hxy
  | cons byte bytes ih =>
    intro x y hxy
    exact round_injective (byte.toUInt64 + 0x100) (s := 30) (c := 0xbf58476d1ce4e5b9) (d := 0x96de1b173f119089)
      (by decide) (by decide) (by decide) (ih hxy)

/-- The word of a run and its names, before the connection is added. -/
def namesWord (runSeed : UInt64) (proxy : String) (fault : FaultId) : UInt64 :=
  let h := mixBytes (runSeed + 0x9e3779b97f4a7c15) (utf8Bytes proxy)
  let h := h + 0xff
  let h := h ^^^ (h >>> 29)
  let h := h * 0xbf58476d1ce4e5b9
  let h := h + (rotateLeft proxy.utf8ByteSize.toUInt64 19 + 0xa0)
  let h := h ^^^ (h >>> 27)
  let h := h * 0x94d049bb133111eb
  let h := mixBytes h (utf8Bytes fault.value)
  let h := h + (rotateLeft fault.value.utf8ByteSize.toUInt64 23 + 0xb0)
  let h := h ^^^ (h >>> 27)
  h * 0x94d049bb133111eb

theorem namesWord_injective (proxy : String) (fault : FaultId) :
    Function.Injective fun runSeed => namesWord runSeed proxy fault := by
  intro x y hxy
  have hlengths (a : UInt64) := round_injective a (s := 27) (c := 0x94d049bb133111eb) (d := 0x319642b2d24d8ec3)
    (by decide) (by decide) (by decide)
  have hseparator := round_injective 0xff (s := 29) (c := 0xbf58476d1ce4e5b9) (d := 0x96de1b173f119089)
    (by decide) (by decide) (by decide)
  have hfault := mixBytes_injective (utf8Bytes fault.value) (hlengths _ hxy)
  have hproxy := mixBytes_injective (utf8Bytes proxy) (hseparator (hlengths _ hfault))
  exact (UInt64.add_left_inj _).1 hproxy

/-! ## What the key and the direction add -/

/-- The constant of a direction. -/
def directionWord : Direction → UInt64
  | .upstream => 0x5550
  | .downstream => 0x444e

theorem deriveSeed_eq (runSeed : UInt64) (proxy : String) (key : UInt64) (direction : Direction) (fault : FaultId) :
    deriveSeed runSeed proxy key direction fault =
      splitmix (namesWord runSeed proxy fault + (rotateLeft key 17 + directionWord direction)) := by
  rw [← UInt64.add_assoc]
  cases direction <;> rfl

theorem directionWord_lt (direction : Direction) : (directionWord direction).toNat < 2 ^ 17 := by
  cases direction <;> decide

theorem directionWord_injective : Function.Injective directionWord := by
  intro x y hxy
  cases x <;> cases y <;> first | rfl | exact absurd hxy (by decide)

/-- Below `2 ^ 47` a key leaves the low 17 bits to the direction. -/
theorem connectionWord_toNat {key : UInt64} (hkey : key.toNat < 2 ^ 47) (direction : Direction) :
    (rotateLeft key 17 + directionWord direction).toNat = key.toNat * 2 ^ 17 + (directionWord direction).toNat := by
  have hrot : (rotateLeft key 17).toNat = key.toNat * 2 ^ 17 := by
    rw [rotateLeft_toNat key (by decide) (by decide)]
    change key.toNat % 2 ^ 47 * 2 ^ 17 + key.toNat / 2 ^ 47 = key.toNat * 2 ^ 17
    rw [Nat.mod_eq_of_lt hkey, Nat.div_eq_of_lt hkey, Nat.add_zero]
  have hlow := directionWord_lt direction
  rw [UInt64.toNat_add, hrot, Nat.mod_eq_of_lt]
  omega

/-- The low 17 bits are the direction, the others the key. -/
theorem connectionWord_inj {k k' : UInt64} {d d' : Direction} (hk : k.toNat < 2 ^ 47) (hk' : k'.toNat < 2 ^ 47)
    (h : rotateLeft k 17 + directionWord d = rotateLeft k' 17 + directionWord d') : k = k' ∧ d = d' := by
  have hval := congrArg UInt64.toNat h
  rw [connectionWord_toNat hk, connectionWord_toNat hk'] at hval
  have hd := directionWord_lt d
  have hd' := directionWord_lt d'
  constructor
  · exact UInt64.toNat_inj.1 (by omega)
  · exact directionWord_injective (UInt64.toNat_inj.1 (by omega))

theorem deriveSeed_runSeed_injective (proxy : String) (key : UInt64) (direction : Direction) (fault : FaultId) :
    Function.Injective fun runSeed => deriveSeed runSeed proxy key direction fault := by
  intro x y hxy
  simp only [deriveSeed_eq] at hxy
  exact namesWord_injective proxy fault ((UInt64.add_left_inj _).1 (splitmix_injective hxy))

theorem deriveSeed_connection_inj {runSeed : UInt64} {proxy : String} {fault : FaultId} {k k' : UInt64}
    {d d' : Direction} (hk : k.toNat < 2 ^ 47) (hk' : k'.toNat < 2 ^ 47)
    (h : deriveSeed runSeed proxy k d fault = deriveSeed runSeed proxy k' d' fault) : k = k' ∧ d = d' := by
  rw [deriveSeed_eq, deriveSeed_eq] at h
  exact connectionWord_inj hk hk' ((UInt64.add_right_inj _).1 (splitmix_injective h))

/-! ## The generators of an engine -/

namespace DirectionEngine

/-- The activation draw moves a generator on by as much whatever its state is. -/
theorem bernoulli_state (rng : DeterministicRng) (probability : ℚ) :
    ∃ step : UInt64, (step = if 0 < probability ∧ probability < 1 then 0x9e3779b97f4a7c15 else 0) ∧
      (rng.bernoulli probability).2.state = rng.state + step := by
  refine ⟨_, rfl, ?_⟩
  unfold DeterministicRng.bernoulli DeterministicRng.nextU64
  by_cases hlow : probability ≤ 0
  · rw [if_pos hlow, if_neg (fun h => absurd h.1 (not_lt.2 hlow)), UInt64.add_zero]
  · by_cases hhigh : 1 ≤ probability
    · rw [if_neg hlow, if_pos hhigh, if_neg (fun h => absurd h.2 (not_lt.2 hhigh)), UInt64.add_zero]
    · rw [if_neg hlow, if_neg hhigh, if_pos ⟨not_le.1 hlow, not_le.1 hhigh⟩]

theorem bernoulli_injective {probability : ℚ} {a b : DeterministicRng}
    (h : (a.bernoulli probability).2 = (b.bernoulli probability).2) : a = b := by
  obtain ⟨step, hstep, ha⟩ := bernoulli_state a probability
  obtain ⟨step', hstep', hb⟩ := bernoulli_state b probability
  have hsum : a.state + step = b.state + step := by
    rw [← ha, h, hb, hstep', ← hstep]
  cases a
  cases b
  simpa using hsum

/-- The generators compilation sets up, in plan order. -/
theorem compile_rngs (plan : FaultPlan) (ident : Identity) (handle : TerminationHandle) (now : Nat) :
    (compile plan ident handle now).rngs = plan.faults.map ident.activation := by
  have hfault (acc : Compiled) (fault : FaultSpec) :
      (compileFault ident now acc fault).rngs = acc.rngs ++ [ident.activation fault] := by
    unfold compileFault
    rcases hact : ident.activation fault with ⟨active, rng⟩
    cases active
    · rfl
    · simp only [if_true]
      unfold compileKind
      cases fault.kind <;> rfl
  have hfold : ∀ (faults : List FaultSpec) (acc : Compiled),
      (faults.foldl (compileFault ident now) acc).rngs = acc.rngs ++ faults.map ident.activation := by
    intro faults
    induction faults with
    | nil => simp
    | cons fault faults ih =>
      intro acc
      rw [List.foldl_cons, ih, hfault, List.map_cons, List.append_assoc, List.singleton_append]
  exact hfold plan.faults {}

theorem lossState_rng {ident : Identity} {fault : FaultSpec} {s : StreamLossConnState}
    (h : s ∈ ident.lossState fault) : s.rng = ident.lossRng fault := by
  unfold Identity.lossState at h
  split at h
  · split at h
    · rw [← Option.mem_some_iff.1 h]
    · exact absurd h (Option.not_mem_none s)
  · exact absurd h (Option.not_mem_none s)

end DirectionEngine

/-! ## Connections of a proxy -/

open DirectionEngine

/-- Seeds do not collide: not those of two runs, and not those of two
connections with keys below `2 ^ 47` or of the two directions of one. Neither do
the generators two such engines start from, the activation draw made or not, nor
their chunk streams. -/
theorem connection_seeds_distinct (proxy : String) :
    (∀ (key : UInt64) (direction : Direction) (fault : FaultId),
      Function.Injective fun runSeed => deriveSeed runSeed proxy key direction fault) ∧
    ∀ (runSeed : UInt64) (k k' : UInt64) (d d' : Direction), k.toNat < 2 ^ 47 → k'.toNat < 2 ^ 47 →
      (k, d) ≠ (k', d') →
      (∀ fault, deriveSeed runSeed proxy k d fault ≠ deriveSeed runSeed proxy k' d' fault) ∧
      ∀ (plan : FaultPlan) (handle handle' : TerminationHandle) (c c' clock clock' : Clock)
        (e e' : DirectionEngine),
        newWithArcPlan plan ⟨runSeed, proxy, k, d⟩ handle c = (.ok e, clock) →
        newWithArcPlan plan ⟨runSeed, proxy, k', d'⟩ handle' c' = (.ok e', clock') →
        List.Forall₂ (fun a b => a.2 ≠ b.2) e.rngs e'.rngs ∧
          List.Forall₂ (fun a b => ∀ s ∈ a, ∀ s' ∈ b, s.rng ≠ s'.rng) e.streamLoss e'.streamLoss := by
  refine ⟨fun key direction fault => deriveSeed_runSeed_injective proxy key direction fault, ?_⟩
  intro runSeed k k' d d' hk hk' hne
  have hseed : ∀ fault, deriveSeed runSeed proxy k d fault ≠ deriveSeed runSeed proxy k' d' fault := by
    intro fault heq
    obtain ⟨hkey, hdir⟩ := deriveSeed_connection_inj hk hk' heq
    exact hne (by rw [hkey, hdir])
  refine ⟨hseed, ?_⟩
  intro plan handle handle' c c' clock clock' e e' he he'
  obtain ⟨-, rfl, -⟩ := newWithArcPlan_ok he
  obtain ⟨-, rfl, -⟩ := newWithArcPlan_ok he'
  constructor
  · rw [compile_rngs, compile_rngs, List.forall₂_map_left_iff, List.forall₂_map_right_iff, List.forall₂_same]
    intro fault _ heq
    exact hseed fault.id (DeterministicRng.mk.inj (bernoulli_injective heq))
  · simp only [compile, compile_streamLoss, List.nil_append]
    rw [List.forall₂_map_left_iff, List.forall₂_map_right_iff, List.forall₂_same]
    intro fault _ s hs s' hs' heq
    rw [lossState_rng hs, lossState_rng hs'] at heq
    exact hseed fault.id ((UInt64.add_left_inj _).1 (DeterministicRng.mk.inj heq))

def halfLossPlan : FaultPlan := ⟨[⟨lossId, half, .streamLoss ⟨half, half⟩⟩]⟩

theorem halfLossPlan_valid : halfLossPlan.validate = .ok () := by
  simp only [halfLossPlan, FaultPlan.validate, FaultPlan.validateFrom_cons]
  rfl

/-- The two directions of the first connection of a proxy. -/
theorem connection_seeds_distinct_directions :
    deriveSeed 7 "web" 1 .upstream lossId ≠ deriveSeed 7 "web" 1 .downstream lossId ∧
      List.Forall₂ (fun a b => a.2 ≠ b.2) (compile halfLossPlan ⟨7, "web", 1, .upstream⟩ .new 0).rngs
        (compile halfLossPlan ⟨7, "web", 1, .downstream⟩ .new 0).rngs := by
  obtain ⟨hseed, hengines⟩ := (connection_seeds_distinct "web").2 7 1 1 .upstream .downstream (by decide) (by decide)
    (by decide)
  have hcompiles := newWithArcPlan_valid halfLossPlan_valid
  exact ⟨hseed lossId, (hengines halfLossPlan .new .new (.still 0) (.still 0) _ _ _ _ (hcompiles _ _ _)
    (hcompiles _ _ _)).1⟩

end Eggchaos
