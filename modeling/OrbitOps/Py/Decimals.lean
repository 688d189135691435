import OrbitOps.Py.Rounding

/-!
# Decimals with few digits

The decimals `n / d`, for one `d` up to a thousand, are much further apart than moderate numbers are
rounded. So the doubles of a moderate decimal and of any other are ordered as the decimals are, and
the rounded difference of two doubles is on the right side of every moderate decimal but the exact
difference itself: there it can be on either side or equal.
-/

namespace Py.Float64
variable {d : Nat} {n t w h : Int} (hd : 0 < d)

section
include hd

theorem one_div_le_one : (1 / d : ℚ) ≤ 1 := by
  have hone : (1 : ℚ) ≤ d := by exact_mod_cast hd
  exact div_le_one_of_le₀ hone (by positivity)

theorem abs_div_le {b : Int} (ht : |t| ≤ b) : |(t / d : ℚ)| ≤ b := by
  have hle : ((|t| : Int) : ℚ) ≤ b := by exact_mod_cast ht
  have hone : (1 : ℚ) ≤ d := by exact_mod_cast hd
  rw [abs_div, Nat.abs_cast, ← Int.cast_abs]
  exact (div_le_self (by positivity) hone).trans hle

/-- A number near a moderate decimal and its double. -/
theorem rounded_near_bounds (ht : |t| ≤ 2 ^ 18) {q : ℚ} (hq : |q - t / d| ≤ 2) :
    q - 1 / 10 ^ 6 ≤ rounded q ∧ rounded q ≤ q + 1 / 10 ^ 6 := by
  have hbound := abs_le.mp (abs_div_le hd ht)
  have hnear := abs_le.mp hq
  push_cast at hbound
  have hmoderate : |q| ≤ 2 ^ 20 := abs_le.mpr ⟨by linarith, by linarith⟩
  have herror := abs_le.mp ((abs_rounded_sub_le hmoderate).trans (by norm_num : (2 : ℚ) ^ (-20 : Int) ≤ 1 / 10 ^ 6))
  exact ⟨by linarith, by linarith⟩

theorem rounded_div_bounds (ht : |t| ≤ 2 ^ 18) :
    (t / d : ℚ) - 1 / 10 ^ 6 ≤ rounded (t / d) ∧ rounded (t / d) ≤ (t / d : ℚ) + 1 / 10 ^ 6 :=
  rounded_near_bounds hd ht (by norm_num)

variable (hd' : d ≤ 1000)
include hd'

theorem inv_le_gap : (1 / 1000 : ℚ) ≤ 1 / d := by
  have hle : (d : ℚ) ≤ 1000 := by exact_mod_cast hd'
  gcongr

/-- The double of a moderate decimal is below those of the greater decimals. -/
theorem rounded_div_lt (ht : |t| ≤ 2 ^ 17) (hlt : t < n) :
    rounded (t / d) < rounded (n / d) := by
  have hgap := inv_le_gap hd hd'
  have hnext : ((t + 1 : Int) / d : ℚ) = t / d + 1 / d := by
    push_cast
    rw [add_div]
  have hmono : rounded ((t + 1 : Int) / d) ≤ rounded (n / d) := by
    refine rounded_mono ?_
    gcongr
    exact_mod_cast hlt
  obtain ⟨-, hupper⟩ := rounded_div_bounds hd (t := t) (by omega)
  obtain ⟨hlower, -⟩ := rounded_div_bounds hd (t := t + 1) (by rw [abs_le] at ht ⊢; omega)
  rw [hnext] at hlower hmono
  linarith

theorem rounded_div_gt (ht : |t| ≤ 2 ^ 17) (hlt : n < t) :
    rounded (n / d) < rounded (t / d) := by
  have h := rounded_div_lt hd hd' (t := -t) (n := -n) (by rwa [abs_neg]) (by omega)
  rw [Int.cast_neg, Int.cast_neg, neg_div, neg_div, rounded_neg, rounded_neg] at h
  exact neg_lt_neg_iff.mp h

theorem rounded_div_le_iff (ht : |t| ≤ 2 ^ 17) :
    rounded (n / d) ≤ rounded (t / d) ↔ n ≤ t := by
  constructor
  · intro hle
    by_contra hlt
    exact not_lt.mpr hle (rounded_div_lt hd hd' ht (not_le.mp hlt))
  · intro hle
    refine rounded_mono ?_
    gcongr

theorem le_rounded_div_iff (ht : |t| ≤ 2 ^ 17) :
    rounded (t / d) ≤ rounded (n / d) ↔ t ≤ n := by
  constructor
  · intro hle
    by_contra hlt
    exact not_lt.mpr hle (rounded_div_gt hd hd' ht (not_le.mp hlt))
  · intro hle
    refine rounded_mono ?_
    gcongr

end

/-! ### Differences -/

/-- The rounded difference of the doubles of two decimals. -/
def roundedSub (d : Nat) (w h : Int) : ℚ := rounded (rounded (w / d) - rounded (h / d))

theorem roundedSub_mono {w' h' : Int} (hw : w ≤ w') (hh : h' ≤ h) : roundedSub d w h ≤ roundedSub d w' h' := by
  have hw' : (w / d : ℚ) ≤ w' / d := by gcongr
  have hh' : (h' / d : ℚ) ≤ h / d := by gcongr
  exact rounded_mono (sub_le_sub (rounded_mono hw') (rounded_mono hh'))

section
variable (hd' : d ≤ 1000) (ht : |t| ≤ 2 ^ 16)
include hd hd' ht

/-- Above the exact difference the comparison with a moderate decimal is right, however large the operands. -/
theorem roundedSub_lt (hw : w ≤ 2 ^ 16) (hh : 0 ≤ h) (hlt : w - h < t) :
    roundedSub d w h < rounded (t / d) := by
  have hgap := inv_le_gap hd hd'
  obtain ⟨htlow, hthigh⟩ := abs_le.mp ht
  -- operands beyond these bounds only lower the difference
  have hmono : roundedSub d w h ≤ roundedSub d (max w (-2 ^ 17)) (min h (2 ^ 18)) :=
    roundedSub_mono (le_max_left _ _) (min_le_left _ _)
  have hwbound : |max w (-2 ^ 17)| ≤ 2 ^ 18 := by rw [abs_le]; omega
  have hhbound : |min h (2 ^ 18)| ≤ 2 ^ 18 := by rw [abs_le]; omega
  have hclose : max w (-2 ^ 17) - min h (2 ^ 18) ≤ t - 1 := by omega
  generalize max w (-2 ^ 17) = w' at *
  generalize min h (2 ^ 18) = h' at *
  obtain ⟨-, hwupper⟩ := rounded_div_bounds hd hwbound
  obtain ⟨hhlower, -⟩ := rounded_div_bounds hd hhbound
  obtain ⟨htlower, -⟩ := rounded_div_bounds hd (t := t) (ht.trans (by norm_num))
  have hcast : (w' - h' : ℚ) ≤ t - 1 := by exact_mod_cast hclose
  have hdiv := div_le_div_of_nonneg_right hcast (Nat.cast_nonneg d)
  rw [sub_div, sub_div] at hdiv
  have hdiff : rounded (w' / d) - rounded (h' / d) ≤ t / d - 1 / d + 2 / 10 ^ 6 := by linarith
  have hround : roundedSub d w' h' ≤ rounded (t / d - 1 / d + 2 / 10 ^ 6) := rounded_mono hdiff
  have hone := one_div_le_one hd
  have hnear : |(t / d - 1 / d + 2 / 10 ^ 6 - t / d : ℚ)| ≤ 2 := abs_le.mpr ⟨by linarith, by linarith⟩
  obtain ⟨-, hupper⟩ := rounded_near_bounds hd (ht.trans (by norm_num)) hnear
  linarith

/-- Below the exact difference, too. -/
theorem lt_roundedSub (hw : w ≤ 2 ^ 16) (hh : 0 ≤ h) (hlt : t < w - h) :
    rounded (t / d) < roundedSub d w h := by
  have hgap := inv_le_gap hd hd'
  obtain ⟨htlow, hthigh⟩ := abs_le.mp ht
  have hwbound : |w| ≤ 2 ^ 18 := by rw [abs_le]; omega
  have hhbound : |h| ≤ 2 ^ 18 := by rw [abs_le]; omega
  obtain ⟨hwlower, -⟩ := rounded_div_bounds hd hwbound
  obtain ⟨-, hhupper⟩ := rounded_div_bounds hd hhbound
  obtain ⟨-, htupper⟩ := rounded_div_bounds hd (t := t) (ht.trans (by norm_num))
  have hcast : (t + 1 : ℚ) ≤ w - h := by exact_mod_cast hlt
  have hdiv := div_le_div_of_nonneg_right hcast (Nat.cast_nonneg d)
  rw [add_div, sub_div] at hdiv
  have hdiff : (t / d + 1 / d - 2 / 10 ^ 6 : ℚ) ≤ rounded (w / d) - rounded (h / d) := by linarith
  have hround : rounded (t / d + 1 / d - 2 / 10 ^ 6) ≤ roundedSub d w h := rounded_mono hdiff
  have hone := one_div_le_one hd
  have hnear : |(t / d + 1 / d - 2 / 10 ^ 6 - t / d : ℚ)| ≤ 2 := abs_le.mpr ⟨by linarith, by linarith⟩
  obtain ⟨hlower, -⟩ := rounded_near_bounds hd (ht.trans (by norm_num)) hnear
  linarith

/-- So only the exact difference itself has to be compared. -/
theorem roundedSub_le_iff (hw : w ≤ 2 ^ 16) (hh : 0 ≤ h)
    (heq : t = w - h → roundedSub d w h ≤ rounded (t / d)) : roundedSub d w h ≤ rounded (t / d) ↔ w - h ≤ t := by
  rcases lt_trichotomy t (w - h) with hlt | hteq | hgt
  · exact iff_of_false (not_le.mpr (lt_roundedSub hd hd' ht hw hh hlt)) (by omega)
  · exact iff_of_true (heq hteq) hteq.ge
  · exact iff_of_true (roundedSub_lt hd hd' ht hw hh hgt).le hgt.le

/-- The same for the rounded sum. -/
theorem le_roundedAdd_iff (hw : -2 ^ 16 ≤ w) (hh : 0 ≤ h)
    (heq : t = w + h → rounded (t / d) ≤ rounded (rounded (w / d) + rounded (h / d))) :
    rounded (t / d) ≤ rounded (rounded (w / d) + rounded (h / d)) ↔ t ≤ w + h := by
  have hneg (n : Int) : rounded ((-n : Int) / d) = -rounded (n / d) := by
    rw [Int.cast_neg, neg_div, rounded_neg]
  have hsub : roundedSub d (-w) h = -rounded (rounded (w / d) + rounded (h / d)) := by
    rw [roundedSub, hneg, ← neg_add', rounded_neg]
  have hiff := roundedSub_le_iff hd hd' (t := -t) (w := -w) (h := h) (by rwa [abs_neg]) (by omega) hh fun hteq => by
    rw [hsub, hneg, neg_le_neg_iff]
    exact heq (by omega)
  rw [hsub, hneg, neg_le_neg_iff] at hiff
  exact hiff.trans (by omega)

end

end Py.Float64
