import Mathlib.Logic.Function.Iterate
import OrbitOps.Py.Struct

/-!
# CRC-32

The reflected CRC-32 of zlib, one table word for each byte. A shift of the remainder is linear and
injective, so is the step for one byte, and two byte strings that differ in a single byte have
different checksums.
-/

namespace Py.Crc32

/-- The reflected generator polynomial. -/
def poly : BitVec 32 := 0xEDB88320#32

/-- One bit of the division. -/
def shift (c : BitVec 32) : BitVec 32 := if c.getLsbD 0 then (c >>> 1) ^^^ poly else c >>> 1

/-- The table word of a byte. -/
def table (i : BitVec 8) : BitVec 32 := shift^[8] (i.setWidth 32)

/-- The remainder after one more byte. -/
def update (c : BitVec 32) (b : UInt8) : BitVec 32 := table (c.setWidth 8 ^^^ b.toBitVec) ^^^ (c >>> 8)

/-- `binascii.crc32`. -/
def crc32 (data : Bytes) : BitVec 32 := data.foldl update 0xFFFFFFFF#32 ^^^ 0xFFFFFFFF#32

theorem xor_xor_cancel (a b p : BitVec 32) : (a ^^^ p) ^^^ (b ^^^ p) = a ^^^ b := by
  rw [BitVec.xor_comm b p, BitVec.xor_assoc, ← BitVec.xor_assoc p, BitVec.xor_self, BitVec.zero_xor]

theorem shift_xor (a b : BitVec 32) : shift (a ^^^ b) = shift a ^^^ shift b := by
  unfold shift
  rw [BitVec.getLsbD_xor, BitVec.ushiftRight_xor_distrib]
  cases a.getLsbD 0 <;> cases b.getLsbD 0
  · rfl
  · exact BitVec.xor_assoc ..
  · simp only [Bool.xor_false, ↓reduceIte, Bool.false_eq_true]
    rw [BitVec.xor_assoc, BitVec.xor_comm _ poly, ← BitVec.xor_assoc]
  · exact (xor_xor_cancel ..).symm

theorem iterate_shift_xor (n : Nat) (a b : BitVec 32) : shift^[n] (a ^^^ b) = shift^[n] a ^^^ shift^[n] b := by
  induction n generalizing a b with
  | zero => rfl
  | succ n ih => rw [Function.iterate_succ_apply, shift_xor, ih]; rfl

/-- The top bit of the polynomial is set, so a shifted remainder shows the bit that was shifted out. -/
theorem shift_eq_zero {c : BitVec 32} (h : shift c = 0#32) : c = 0#32 := by
  have htop : (c >>> 1).getLsbD 31 = false := by simp
  have hlow : c.getLsbD 0 = false := by
    by_contra hc
    rw [Bool.not_eq_false] at hc
    have := congrArg (·.getLsbD 31) h
    simp only [shift, hc, ↓reduceIte, BitVec.getLsbD_xor, htop] at this
    exact absurd this (by decide)
  simp only [shift, hlow, Bool.false_eq_true, ↓reduceIte] at h
  refine BitVec.eq_of_getLsbD_eq fun i hi => ?_
  match i with
  | 0 => simpa using hlow
  | i + 1 =>
    have := congrArg (·.getLsbD i) h
    simp only [BitVec.getLsbD_ushiftRight] at this
    rw [Nat.add_comm i 1, this]
    simp

theorem shift_injective : Function.Injective shift := by
  intro a b h
  have h0 : shift (a ^^^ b) = 0#32 := by rw [shift_xor, h, BitVec.xor_self]
  exact BitVec.xor_eq_zero_iff.mp (shift_eq_zero h0)

/-- A remainder whose `k` low bits are clear only moves down in `k` shifts. -/
theorem iterate_shift_of_low_clear {k : Nat} {c : BitVec 32} (h : ∀ i < k, c.getLsbD i = false) :
    shift^[k] c = c >>> k := by
  induction k generalizing c with
  | zero => simp
  | succ k ih =>
    have h0 : shift c = c >>> 1 := by
      simp only [shift, h 0 (by omega), Bool.false_eq_true, ↓reduceIte]
    rw [Function.iterate_succ_apply, h0, ih, ← BitVec.shiftRight_add, Nat.add_comm]
    intro i hi
    rw [BitVec.getLsbD_ushiftRight]
    exact h _ (by omega)

/-- The table-driven step is eight single-bit steps from `c ^ b`. -/
theorem update_eq (c : BitVec 32) (b : UInt8) : update c b = shift^[8] (c ^^^ b.toBitVec.setWidth 32) := by
  set low : BitVec 32 := (c.setWidth 8 ^^^ b.toBitVec).setWidth 32 with hlow
  have hhigh : ∀ i < 8, ((c ^^^ b.toBitVec.setWidth 32) ^^^ low).getLsbD i = false := by
    intro i hi
    simp [hlow, hi, show i < 32 by omega]
  have hshift : ((c ^^^ b.toBitVec.setWidth 32) ^^^ low) >>> 8 = c >>> 8 := by
    refine BitVec.eq_of_getLsbD_eq fun i hi => ?_
    simp [hlow, BitVec.getLsbD_setWidth]
  have hsplit : c ^^^ b.toBitVec.setWidth 32 = low ^^^ ((c ^^^ b.toBitVec.setWidth 32) ^^^ low) := by
    rw [BitVec.xor_comm _ low, ← BitVec.xor_assoc, BitVec.xor_self, BitVec.zero_xor]
  rw [hsplit, iterate_shift_xor, iterate_shift_of_low_clear hhigh, hshift]
  rfl

theorem update_left_injective (b : UInt8) : Function.Injective fun c => update c b := by
  intro c c' h
  simp only [update_eq] at h
  have := shift_injective.iterate 8 h
  simpa using congrArg (· ^^^ b.toBitVec.setWidth 32) this

theorem update_right_injective (c : BitVec 32) : Function.Injective (update c) := by
  intro b b' h
  rw [update_eq, update_eq] at h
  have hx := shift_injective.iterate 8 h
  have hb : b.toBitVec.setWidth 32 = b'.toBitVec.setWidth 32 := by
    have := congrArg (c ^^^ ·) hx
    simpa [← BitVec.xor_assoc] using this
  have := congrArg (BitVec.setWidth 8) hb
  exact UInt8.toBitVec_inj.mp (by simpa using this)

theorem foldl_update_injective (data : Bytes) : Function.Injective fun c => data.foldl update c := by
  induction data with
  | nil => exact fun _ _ h => h
  | cons b data ih => exact fun c c' h => update_left_injective b (ih h)

/-- The checksum tells apart byte strings that differ in one byte. -/
theorem crc32_ne {pre suf : Bytes} {b b' : UInt8} (h : b ≠ b') :
    crc32 (pre ++ b :: suf) ≠ crc32 (pre ++ b' :: suf) := by
  intro heq
  have hx : (pre ++ b :: suf).foldl update 0xFFFFFFFF#32 = (pre ++ b' :: suf).foldl update 0xFFFFFFFF#32 := by
    have := congrArg (· ^^^ 0xFFFFFFFF#32) heq
    simpa [crc32, BitVec.xor_assoc] using this
  rw [List.foldl_append, List.foldl_append, List.foldl_cons, List.foldl_cons] at hx
  exact h (update_right_injective _ (foldl_update_injective suf hx))

/-- The check value of the algorithm. -/
example : crc32 [0x31, 0x32, 0x33, 0x34, 0x35, 0x36, 0x37, 0x38, 0x39] = 0xCBF43926#32 := by
  decide +kernel

end Py.Crc32
