import OrbitOps.Py.FloatEq

/-!
# Doubles are ordered as their exact values

Words order the finite doubles as `signedUnits` does, so Python's comparisons are the comparisons of
the exact values.
-/

namespace Py.Float64
variable {x y : Float64}

/-- Magnitudes are ordered as their words. -/
theorem units_strictMono (h : x.magBits < y.magBits) : x.units < y.units := by
  have hx := Nat.mod_add_div x.magBits (2 ^ 52)
  have hy := Nat.mod_add_div y.magBits (2 ^ 52)
  have hfx : x.magBits % 2 ^ 52 < 2 ^ 52 := Nat.mod_lt _ (by decide)
  have hdiv : x.magBits / 2 ^ 52 ≤ y.magBits / 2 ^ 52 := Nat.div_le_div_right h.le
  rw [units, units]
  generalize x.magBits / 2 ^ 52 = a, y.magBits / 2 ^ 52 = b, x.magBits % 2 ^ 52 = f, y.magBits % 2 ^ 52 = g at *
  rcases Nat.lt_or_eq_of_le hdiv with hlt | rfl
  · rw [if_neg (show b ≠ 0 by omega)]
    have hpow : 2 ^ 52 * 2 ^ (b - 1) ≤ (2 ^ 52 + g) * 2 ^ (b - 1) := Nat.mul_le_mul_right _ (Nat.le_add_right _ _)
    refine lt_of_lt_of_le ?_ hpow
    by_cases ha : a = 0
    · rw [if_pos ha]
      exact lt_of_lt_of_le hfx (Nat.le_mul_of_pos_right _ (by positivity))
    · rw [if_neg ha]
      calc (2 ^ 52 + f) * 2 ^ (a - 1) < 2 ^ 53 * 2 ^ (a - 1) := by gcongr; omega
        _ = 2 ^ 52 * 2 ^ a := by rw [show 53 = 52 + 1 by rfl, pow_succ, mul_assoc, ← pow_succ', Nat.sub_add_cancel (by omega)]
        _ ≤ 2 ^ 52 * 2 ^ (b - 1) := Nat.mul_le_mul_left _ (Nat.pow_le_pow_right (by decide) (by omega))
  · by_cases ha : a = 0
    · rw [if_pos ha, if_pos ha]
      omega
    · rw [if_neg ha, if_neg ha]
      gcongr
      omega

theorem magBits_eq_of_units (h : x.units = y.units) : x.magBits = y.magBits := by
  rcases Nat.lt_trichotomy x.magBits y.magBits with hlt | heq | hgt
  · exact absurd h (units_strictMono hlt).ne
  · exact heq
  · exact absurd h (units_strictMono hgt).ne'

theorem units_eq_zero_iff : x.units = 0 ↔ x.magBits = 0 :=
  ⟨fun h => magBits_eq_of_units (y := zero) h, fun h => by rw [units, h]; rfl⟩

theorem units_lt_iff : x.units < y.units ↔ x.magBits < y.magBits := by
  refine ⟨fun h => ?_, units_strictMono⟩
  by_contra hle
  rcases Nat.lt_or_eq_of_le (not_lt.mp hle) with hlt | heq
  · exact lt_asymm h (units_strictMono hlt)
  · rw [units, units, heq] at h
    exact lt_irrefl _ h

theorem units_le_iff : x.units ≤ y.units ↔ x.magBits ≤ y.magBits := by
  rw [← not_lt, units_lt_iff, not_lt]

theorem signedUnits_le_iff : x.signedUnits ≤ y.signedUnits ↔ x.key ≤ y.key := by
  have hle : x.units ≤ y.units ↔ x.magBits ≤ y.magBits := units_le_iff
  have hge : y.units ≤ x.units ↔ y.magBits ≤ x.magBits := units_le_iff
  have hx : x.units = 0 ↔ x.magBits = 0 := units_eq_zero_iff
  have hy : y.units = 0 ↔ y.magBits = 0 := units_eq_zero_iff
  rw [signedUnits, signedUnits, key, key]
  split_ifs <;> omega

theorem toRat_eq_div (x : Float64) : x.toRat = x.signedUnits / 2 ^ 1074 := by
  rw [toRat, Rat.mkRat_eq_div, signedUnits, Nat.cast_pow, Nat.cast_ofNat]

theorem toRat_le_iff : x.toRat ≤ y.toRat ↔ x.key ≤ y.key := by
  rw [toRat_eq_div, toRat_eq_div, div_le_div_iff_of_pos_right (by positivity), Int.cast_le, signedUnits_le_iff]

theorem toRat_eq_iff : x.toRat = y.toRat ↔ x.key = y.key := by
  rw [le_antisymm_iff, toRat_le_iff, toRat_le_iff, ← le_antisymm_iff]

theorem toRat_lt_iff : x.toRat < y.toRat ↔ x.key < y.key := by
  rw [← not_le, toRat_le_iff, not_le]

theorem le_iff_toRat (hx : x.isFinite = true) (hy : y.isFinite = true) : x.le y = true ↔ x.toRat ≤ y.toRat := by
  rw [le, isNan_of_isFinite hx, isNan_of_isFinite hy, toRat_le_iff]
  simp

theorem lt_iff_toRat (hx : x.isFinite = true) (hy : y.isFinite = true) : x.lt y = true ↔ x.toRat < y.toRat := by
  rw [lt, isNan_of_isFinite hx, isNan_of_isFinite hy, toRat_lt_iff]
  simp

theorem isFinite_zero : zero.isFinite = true := by decide

theorem toRat_zero : zero.toRat = 0 := by
  have hunits : zero.signedUnits = 0 := by decide
  rw [toRat_eq_div, hunits]
  norm_num

end Py.Float64
