import OrbitOps.Py.Float64

/-!
# Equal doubles

Python compares floats, and integers with floats, by their exact values. Two finite doubles are
equal when they are the same, apart from the two zeros.
-/

namespace Py.Float64
variable {x y : Float64}

/-- `x == y`. -/
def eq (x y : Float64) : Bool := !x.isNan && !y.isNan && decide (x.key = y.key)

/-- The double is `-0.0`. -/
def isNegZero (x : Float64) : Bool := x.signBit && x.magBits == 0

theorem ext_sign_mag (hs : x.signBit = y.signBit) (hm : x.magBits = y.magBits) : x = y := by
  have hbits (b : BitVec 64) : b.toNat = (if b.msb then 2 ^ 63 else 0) + b.toNat % 2 ^ 63 := by
    have hlt := b.isLt
    rw [BitVec.msb_eq_decide]
    split_ifs with h
    · have := of_decide_eq_true h
      omega
    · have := of_decide_eq_false (Bool.eq_false_iff.mpr h)
      omega
  obtain ⟨a⟩ := x
  obtain ⟨b⟩ := y
  rw [signBit, signBit] at hs
  rw [magBits, magBits] at hm
  refine congrArg Float64.mk (BitVec.eq_of_toNat_eq ?_)
  rw [hbits a, hbits b, hs, hm]

/-- Doubles in the same place of the order are the same, unless only one of them is `-0.0`. -/
theorem eq_of_key (h : x.key = y.key) (hz : x.isNegZero = y.isNegZero) : x = y := by
  rw [key, key] at h
  have hmag : x.magBits = y.magBits := by
    split_ifs at h <;> omega
  refine ext_sign_mag ?_ hmag
  rw [isNegZero, isNegZero, hmag] at hz
  by_cases h0 : y.magBits = 0
  · simpa [h0] using hz
  · rw [hmag] at h
    cases hx : x.signBit <;> cases hy : y.signBit <;> simp only [hx, hy, Bool.false_eq_true, ↓reduceIte] at h ⊢ <;> omega

end Py.Float64
