import Mathlib.Data.Nat.ModEq
import Mathlib.Tactic.Positivity
import Mathlib.Tactic.Zify
import OrbitOps.Py.Text

/-!
# Byte strings

Big-endian packing of unsigned and two's-complement integers (`struct` with `!`), `bytes.hex` and
`bytes.fromhex`.
-/

namespace Py

/-- `bytes`. -/
abbrev Bytes := List UInt8

/-- The `width` low-order bytes of `n`, most significant first. -/
def packBE : Nat → Nat → Bytes
  | 0, _ => []
  | w + 1, n => UInt8.ofNat (n / 256 ^ w) :: packBE w n

/-- The unsigned value of big-endian bytes. -/
def unpackBE : Bytes → Nat
  | [] => 0
  | b :: bs => b.toNat * 256 ^ bs.length + unpackBE bs

/-- Two's-complement packing. -/
def packSigned (width : Nat) (n : Int) : Bytes := packBE width (n % 256 ^ width).toNat

/-- The two's-complement value of big-endian bytes. -/
def unpackSigned (bs : Bytes) : Int :=
  if 2 * unpackBE bs < 256 ^ bs.length then unpackBE bs else (unpackBE bs : Int) - 256 ^ bs.length

@[simp] theorem length_packBE (w n : Nat) : (packBE w n).length = w := by
  induction w with
  | zero => rfl
  | succ w ih => rw [packBE, List.length_cons, ih]

theorem unpackBE_packBE (w n : Nat) : unpackBE (packBE w n) = n % 256 ^ w := by
  induction w with
  | zero => simp [packBE, unpackBE, Nat.mod_one]
  | succ w ih =>
    have hsplit : n % (256 ^ w * 256) = n % 256 ^ w + 256 ^ w * (n / 256 ^ w % 256) := Nat.mod_mul
    rw [packBE, unpackBE, ih, length_packBE, UInt8.toNat_ofNat', Nat.pow_succ 256, hsplit, Nat.mul_comm, Nat.add_comm]

theorem unpackBE_packBE_of_lt {w n : Nat} (h : n < 256 ^ w) : unpackBE (packBE w n) = n := by
  rw [unpackBE_packBE, Nat.mod_eq_of_lt h]

theorem unpackBE_lt (bs : Bytes) : unpackBE bs < 256 ^ bs.length := by
  induction bs with
  | nil => simp [unpackBE]
  | cons b bs ih =>
    have hb : b.toNat + 1 ≤ 256 := b.toNat_lt
    rw [unpackBE, List.length_cons, Nat.pow_succ]
    calc b.toNat * 256 ^ bs.length + unpackBE bs < (b.toNat + 1) * 256 ^ bs.length := by
          rw [Nat.add_mul, Nat.one_mul]; omega
      _ ≤ 256 * 256 ^ bs.length := Nat.mul_le_mul_right _ hb
      _ = 256 ^ bs.length * 256 := Nat.mul_comm _ _

theorem unpackBE_injective {bs bs' : Bytes} (hlen : bs.length = bs'.length)
    (h : unpackBE bs = unpackBE bs') : bs = bs' := by
  induction bs generalizing bs' with
  | nil => exact (List.length_eq_zero_iff.mp hlen.symm).symm
  | cons b bs ih =>
    match bs' with
    | [] => simp at hlen
    | b' :: bs' =>
      have hlen' : bs.length = bs'.length := by simpa using hlen
      simp only [unpackBE, hlen'] at h
      have hlt := unpackBE_lt bs
      have hlt' := unpackBE_lt bs'
      rw [hlen'] at hlt
      have hdiv (c r : Nat) (hr : r < 256 ^ bs'.length) : (c * 256 ^ bs'.length + r) / 256 ^ bs'.length = c := by
        rw [Nat.mul_comm, Nat.mul_add_div (by positivity), Nat.div_eq_of_lt hr, Nat.add_zero]
      have hb : b.toNat = b'.toNat := by rw [← hdiv b.toNat _ hlt, h, hdiv _ _ hlt']
      have hu : unpackBE bs = unpackBE bs' := by rw [hb] at h; omega
      rw [UInt8.toNat_inj.mp hb, ih hlen' hu]

theorem packBE_unpackBE (bs : Bytes) : packBE bs.length (unpackBE bs) = bs :=
  unpackBE_injective (length_packBE ..) (unpackBE_packBE_of_lt (unpackBE_lt bs))

theorem unpackSigned_packSigned {w : Nat} {n : Int} (hlo : -(256 ^ w) ≤ 2 * n)
    (hhi : 2 * n < 256 ^ w) : unpackSigned (packSigned w n) = n := by
  have hpos : (0 : Int) < 256 ^ w := by positivity
  have hval : unpackBE (packBE w (n % 256 ^ w).toNat) = (n % 256 ^ w).toNat := by
    refine unpackBE_packBE_of_lt ?_
    have := Int.emod_lt_of_pos n hpos
    have := Int.emod_nonneg n hpos.ne'
    zify
    rw [Int.toNat_of_nonneg this]
    assumption
  have hcast : ((n % 256 ^ w).toNat : Int) = n % 256 ^ w := Int.toNat_of_nonneg (Int.emod_nonneg n hpos.ne')
  rw [unpackSigned, packSigned, hval, length_packBE, hcast]
  by_cases hn : 0 ≤ n
  · have hmod : n % 256 ^ w = n := Int.emod_eq_of_lt hn (by omega)
    rw [if_pos]
    · exact hmod
    · zify; rw [hcast, hmod]; exact hhi
  · have hmod : n % 256 ^ w = n + 256 ^ w := by
      rw [← Int.add_emod_right]
      exact Int.emod_eq_of_lt (by omega) (by omega)
    rw [if_neg]
    · rw [hmod]; omega
    · zify; rw [hcast, hmod]; omega

theorem packSigned_unpackSigned (bs : Bytes) : packSigned bs.length (unpackSigned bs) = bs := by
  have hlt : (unpackBE bs : Int) < 256 ^ bs.length := by exact_mod_cast unpackBE_lt bs
  have hmod : unpackSigned bs % 256 ^ bs.length = unpackBE bs := by
    unfold unpackSigned
    split_ifs
    · exact Int.emod_eq_of_lt (Int.natCast_nonneg _) hlt
    · rw [Int.sub_emod_right]
      exact Int.emod_eq_of_lt (Int.natCast_nonneg _) hlt
  rw [packSigned, hmod, Int.toNat_natCast, packBE_unpackBE]

/-! ### Hexadecimal text -/

/-- `bytes.hex`. -/
def hexOfBytes (bs : Bytes) : String := String.ofList (bs.flatMap hexByte)

/-- White space that `bytes.fromhex` skips between bytes. -/
def isAsciiSpace (c : Char) : Bool := (9 ≤ c.toNat && c.toNat ≤ 13) || c.toNat == 32

/-- `bytes.fromhex` on characters; nothing stands for `ValueError`. -/
def bytesOfChars : List Char → Option Bytes
  | [] => some []
  | [c] => if isAsciiSpace c then some [] else none
  | c :: c' :: rest =>
    if isAsciiSpace c then bytesOfChars (c' :: rest)
    else
      match hexValue? c, hexValue? c' with
      | some hi, some lo => (bytesOfChars rest).map (UInt8.ofNat (16 * hi + lo) :: ·)
      | _, _ => none

/-- `bytes.fromhex`. -/
def bytesOfHex (s : String) : Option Bytes := bytesOfChars s.toList

theorem not_isAsciiSpace_hexDigit : ∀ n < 16, isAsciiSpace (hexDigit n) = false := by decide

theorem bytesOfChars_flatMap (bs : Bytes) : bytesOfChars (bs.flatMap hexByte) = some bs := by
  induction bs with
  | nil => rfl
  | cons b bs ih =>
    have hb : b.toNat < 256 := b.toNat_lt
    have hhi : b.toNat / 16 < 16 := by omega
    have hlo : b.toNat % 16 < 16 := Nat.mod_lt _ (by decide)
    rw [List.flatMap_cons, hexByte, List.cons_append, List.cons_append, List.nil_append, bytesOfChars,
      not_isAsciiSpace_hexDigit _ hhi, hexValue?_hexDigit _ hhi, hexValue?_hexDigit _ hlo]
    simp only [Bool.false_eq_true, ↓reduceIte, ih, Option.map_some]
    rw [show 16 * (b.toNat / 16) + b.toNat % 16 = b.toNat by omega, UInt8.ofNat_toNat]

theorem bytesOfHex_hexOfBytes (bs : Bytes) : bytesOfHex (hexOfBytes bs) = some bs := by
  rw [bytesOfHex, hexOfBytes, String.toList_ofList, bytesOfChars_flatMap]

end Py
