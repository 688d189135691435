import OrbitOps.Link.Config

/-!
# Decision types and pseudo-random primitives

`SplitMix64` keeps its state in a 64-bit word, so the masks of the source are the word arithmetic
itself. A probability decision compares one sample with an exact rational threshold.
-/

namespace OrbitOps.Link
open Py

def goldenGamma : BitVec 64 := 0x9E3779B97F4A7C15#64
def mix1 : BitVec 64 := 0xBF58476D1CE4E5B9#64
def mix2 : BitVec 64 := 0x94D049BB133111EB#64

/-- The generator, as its state word. -/
structure SplitMix64 where
  state : BitVec 64
deriving DecidableEq, Repr

namespace SplitMix64

def new (seed : Nat) : SplitMix64 := ⟨BitVec.ofNat 64 seed⟩

/-- The output function of the generator. -/
def mix (state : BitVec 64) : BitVec 64 :=
  let value := state
  let value := (value ^^^ (value >>> 30)) * mix1
  let value := (value ^^^ (value >>> 27)) * mix2
  value ^^^ (value >>> 31)

def nextU64 (rng : SplitMix64) : BitVec 64 × SplitMix64 :=
  let state := rng.state + goldenGamma
  (mix state, ⟨state⟩)

/-- The generator after `n` calls. -/
def advance (rng : SplitMix64) : Nat → SplitMix64
  | 0 => rng
  | n + 1 => (rng.advance n).nextU64.2

/-- What the call after `n` calls returns. -/
def output (rng : SplitMix64) (n : Nat) : BitVec 64 := (rng.advance n).nextU64.1

theorem advance_add (rng : SplitMix64) (m n : Nat) : (rng.advance m).advance n = rng.advance (m + n) := by
  induction n with
  | zero => rfl
  | succ n ih => exact congrArg (fun r : SplitMix64 => r.nextU64.2) ih

theorem output_advance (rng : SplitMix64) (m n : Nat) : (rng.advance m).output n = rng.output (m + n) :=
  congrArg (fun r : SplitMix64 => r.nextU64.1) (advance_add rng m n)

end SplitMix64

/-- `probability_hit`: the rate as the exact rational of its double. -/
def probabilityHit (sample : BitVec 64) (rate : ℚ) : Bool :=
  if rate ≤ 0 then false
  else if 1 ≤ rate then true
  else
    let threshold := (rate.num * 2 ^ 64) / rate.den
    decide ((sample.toNat : Int) < threshold)

/-- `scale_u64`: multiply-high into `range(upper_bound)`. -/
def scaleU64 (sample : BitVec 64) (upperBound : Int) : Result Int :=
  if upperBound ≤ 0 then .error (valueError "upper_bound must be positive")
  else .ok ((sample.toNat * upperBound) / 2 ^ 64)

structure Delivery where
  payload : Bytes
  copyIndex : Int
  delayMs : Int
  holdPackets : Int
  corruptedBit : Option Int
deriving DecidableEq, Repr

/-- The result for one input datagram. -/
structure PacketOutcome where
  packetIndex : Int
  dropped : Bool
  deliveries : List Delivery
deriving DecidableEq, Repr

def PacketOutcome.duplicated (o : PacketOutcome) : Bool := o.deliveries.length == 2

/-- Scaling never leaves the range and never raises on a positive bound. -/
theorem scaleU64_spec (sample : BitVec 64) {bound : Int} (h : 0 < bound) :
    ∃ v, scaleU64 sample bound = .ok v ∧ 0 ≤ v ∧ v < bound := by
  refine ⟨_, if_neg (not_le.mpr h), by positivity, ?_⟩
  have hs : (sample.toNat : Int) < 2 ^ 64 := by exact_mod_cast sample.isLt
  rw [Int.ediv_lt_iff_lt_mul (by positivity)]
  calc (sample.toNat : Int) * bound < 2 ^ 64 * bound := by gcongr
    _ = bound * 2 ^ 64 := mul_comm _ _

end OrbitOps.Link
