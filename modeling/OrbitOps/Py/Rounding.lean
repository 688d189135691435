import Mathlib.Algebra.Order.Floor.Ring
import OrbitOps.Py.FloatOrder

/-!
# Rounding to the nearest double

`rounded q` is the exact value of the double nearest to the rational `q`. It is monotone and leaves the
values of doubles as they are, so everything it does to a number lies between the doubles around the
number: for moderate numbers it is off by less than a fixed dyadic. Literals, quotients, sums and
differences of doubles are rounded values of their exact results.
-/

namespace Py.Float64
variable {x y : Float64} {n n' d d' : Nat}

/-! ### Integers -/

/-- Half-even division is within a half, and even at a half. -/
theorem divRoundHalfEven_spec (hd : d ≠ 0) :
    (2 * divRoundHalfEven n d : ℚ) ≤ 2 * (n / d) + 1 ∧ (2 * (n / d) : ℚ) ≤ 2 * divRoundHalfEven n d + 1 ∧
      ((2 * divRoundHalfEven n d : ℚ) = 2 * (n / d) + 1 ∨ (2 * (n / d) : ℚ) = 2 * divRoundHalfEven n d + 1 →
        divRoundHalfEven n d % 2 = 0) := by
  have hdq : (0 : ℚ) < d := by positivity
  have hvalue : (n / d : ℚ) = (n / d : Nat) + (n % d : Nat) / d := by
    field_simp
    exact_mod_cast (Nat.div_add_mod n d).symm
  have hbelow : 2 * (n % d) < d ↔ (2 * ((n % d : Nat) / d) : ℚ) < 1 := by
    rw [← mul_div_assoc, div_lt_one hdq]
    exact_mod_cast Iff.rfl
  have htie : 2 * (n % d) = d ↔ (2 * ((n % d : Nat) / d) : ℚ) = 1 := by
    rw [← mul_div_assoc, div_eq_one_iff_eq hdq.ne']
    exact_mod_cast Iff.rfl
  have hpos : (0 : ℚ) ≤ (n % d : Nat) / d := by positivity
  have hlt : ((n % d : Nat) / d : ℚ) < 1 := by
    rw [div_lt_one hdq]
    exact_mod_cast Nat.mod_lt n (Nat.pos_of_ne_zero hd)
  rw [hvalue, divRoundHalfEven]
  simp only [hbelow, htie]
  generalize ((n % d : Nat) / d : ℚ) = f at *
  generalize n / d = m
  split_ifs with h
  · rcases h with h | ⟨h, heven⟩
    · exact ⟨by linarith, by linarith, fun ht => by rcases ht with ht | ht <;> linarith⟩
    · exact ⟨by linarith, by linarith, fun _ => heven⟩
  · rw [not_or, not_and, not_lt] at h
    push_cast
    refine ⟨by linarith, by linarith, fun ht => ?_⟩
    have hhalf : 2 * f = 1 := by rcases ht with ht | ht <;> linarith
    have hodd := h.2 hhalf
    omega

/-- Half-even division is monotone in the quotient. -/
theorem divRoundHalfEven_mono (hd : d ≠ 0) (hd' : d' ≠ 0) (h : (n / d : ℚ) ≤ n' / d') :
    divRoundHalfEven n d ≤ divRoundHalfEven n' d' := by
  obtain ⟨hlow, -, hdown⟩ := divRoundHalfEven_spec (n := n) hd
  obtain ⟨-, hhigh, hup⟩ := divRoundHalfEven_spec (n := n') hd'
  generalize divRoundHalfEven n d = m at *
  generalize divRoundHalfEven n' d' = m' at *
  by_contra hgt
  have hstep : (m' + 1 : ℚ) ≤ m := by exact_mod_cast (not_le.mp hgt : m' + 1 ≤ m)
  -- both quotients are the half between two consecutive integers, and only one of these is even
  have heven := hdown (.inl (by linarith))
  have heven' := hup (.inr (by linarith))
  have hnext : m = m' + 1 := by
    have hq : (m : ℚ) = m' + 1 := by linarith
    exact_mod_cast hq
  omega

theorem divRoundHalfEven_of_dvd {m : Nat} (hd : d ≠ 0) (h : n = m * d) : divRoundHalfEven n d = m := by
  rw [h, divRoundHalfEven, Nat.mul_div_cancel _ (Nat.pos_of_ne_zero hd), Nat.mul_mod_left]
  exact if_pos (.inl (Nat.pos_of_ne_zero hd))

/-! ### Words -/

/-- The significand that `roundMag` rounds to, for an exponent. -/
def significand (n d : Nat) (e : Int) : Nat :=
  if 0 ≤ e then divRoundHalfEven n (d * 2 ^ e.toNat) else divRoundHalfEven (n * 2 ^ (-e).toNat) d

theorem significand_eq (n : Nat) (hd : d ≠ 0) (e : Int) : ∃ n₁ d₁ : Nat, d₁ ≠ 0 ∧ (n₁ / d₁ : ℚ) = n / d / 2 ^ e ∧
    significand n d e = divRoundHalfEven n₁ d₁ := by
  rw [significand]
  split_ifs with h
  · obtain ⟨k, rfl⟩ := Int.eq_ofNat_of_zero_le h
    refine ⟨n, d * 2 ^ k, by positivity, ?_, rfl⟩
    rw [zpow_natCast, Nat.cast_mul, Nat.cast_pow, Nat.cast_ofNat, div_div]
  · obtain ⟨k, hk⟩ := Int.eq_ofNat_of_zero_le (show 0 ≤ -e by omega)
    obtain rfl : e = -(k : Int) := by omega
    refine ⟨n * 2 ^ k, d, hd, ?_, by rw [neg_neg, Int.toNat_natCast]⟩
    rw [zpow_neg, zpow_natCast, div_inv_eq_mul, Nat.cast_mul, Nat.cast_pow, Nat.cast_ofNat, div_mul_eq_mul_div]

theorem significand_mono (hd : d ≠ 0) (hd' : d' ≠ 0) (h : (n / d : ℚ) ≤ n' / d') (e : Int) :
    significand n d e ≤ significand n' d' e := by
  obtain ⟨n₁, d₁, hd₁, hvalue, hsig⟩ := significand_eq n hd e
  obtain ⟨n₂, d₂, hd₂, hvalue', hsig'⟩ := significand_eq n' hd' e
  rw [hsig, hsig']
  refine divRoundHalfEven_mono hd₁ hd₂ ?_
  rw [hvalue, hvalue']
  gcongr

theorem le_significand (hd : d ≠ 0) {e : Int} {m : Nat} (h : (m : ℚ) * 2 ^ e ≤ n / d) : m ≤ significand n d e := by
  obtain ⟨n₁, d₁, hd₁, hvalue, hsig⟩ := significand_eq n hd e
  have hself : divRoundHalfEven m 1 = m := divRoundHalfEven_of_dvd one_ne_zero (mul_one m).symm
  rw [hsig]
  refine hself.symm.le.trans (divRoundHalfEven_mono one_ne_zero hd₁ ?_)
  rw [hvalue, Nat.cast_one, div_one, le_div_iff₀ (by positivity)]
  exact h

/-- The exponent that `roundMag` chooses. -/
def exponent (n d : Nat) : Int := max (log2Fraction n d - 52) (-1074)

theorem roundMag_zero (d : Nat) : roundMag 0 d = 0 := if_pos rfl

theorem roundMag_eq (hn : n ≠ 0) (d : Nat) : roundMag n d =
    min ((exponent n d + 1074).toNat * 2 ^ 52 + significand n d (exponent n d)) infBits := by
  rw [roundMag, if_neg hn]
  rfl

theorem log2Fraction_mono (hn : n ≠ 0) (hd : d ≠ 0) (hn' : n' ≠ 0) (hd' : d' ≠ 0) (h : (n / d : ℚ) ≤ n' / d') :
    log2Fraction n d ≤ log2Fraction n' d' := by
  have hlow := (log2Fraction_spec hn hd).1
  have hhigh := (log2Fraction_spec hn' hd').2
  have hpow := (zpow_lt_zpow_iff_right₀ (by norm_num : (1 : ℚ) < 2)).mp (hlow.trans_lt (h.trans_lt hhigh))
  omega

/-- A greater fraction rounds to a word that is no smaller. -/
theorem roundMag_mono (hd : d ≠ 0) (hd' : d' ≠ 0) (h : (n / d : ℚ) ≤ n' / d') : roundMag n d ≤ roundMag n' d' := by
  by_cases hn : n = 0
  · rw [hn, roundMag_zero]
    exact Nat.zero_le _
  have hpos : (0 : ℚ) < n / d := by positivity
  have hn' : n' ≠ 0 := by
    rintro rfl
    rw [Nat.cast_zero, zero_div] at h
    exact absurd hpos (not_lt.mpr h)
  have hlog := log2Fraction_mono hn hd hn' hd' h
  rw [roundMag_eq hn, roundMag_eq hn']
  refine min_le_min_right _ ?_
  have hexp : exponent n d ≤ exponent n' d' := max_le_max_right _ (by omega)
  rcases hexp.eq_or_lt with heq | hlt
  · rw [heq]
    exact Nat.add_le_add_left (significand_mono hd hd' h _) _
  · -- the greater exponent is no subnormal one, so its significand is full
    have he' : exponent n' d' = log2Fraction n' d' - 52 := by
      rw [exponent, exponent] at hlt
      rw [exponent]
      omega
    have hlarge : 2 ^ 52 ≤ significand n' d' (exponent n' d') := by
      refine le_significand hd' ?_
      rw [he', Nat.cast_pow, Nat.cast_ofNat, ← zpow_natCast, ← zpow_add₀ (by norm_num)]
      refine le_of_eq_of_le ?_ (log2Fraction_spec hn' hd').1
      congr 1
      push_cast
      ring
    have hsmall : significand n d (exponent n d) ≤ 2 ^ 53 := significand_le hn hd (le_max_left _ _)
    have hmin : -1074 ≤ exponent n d := le_max_right _ _
    have hnext : (exponent n d + 1074).toNat + 1 ≤ (exponent n' d' + 1074).toNat := by omega
    calc (exponent n d + 1074).toNat * 2 ^ 52 + significand n d (exponent n d)
        ≤ (exponent n d + 1074).toNat * 2 ^ 52 + 2 ^ 53 := Nat.add_le_add_left hsmall _
      _ = ((exponent n d + 1074).toNat + 1) * 2 ^ 52 + 2 ^ 52 := by ring
      _ ≤ (exponent n' d' + 1074).toNat * 2 ^ 52 + 2 ^ 52 := by gcongr
      _ ≤ _ := Nat.add_le_add_left hlarge _

theorem significand_exact (hd : d ≠ 0) {m : Nat} {e : Int} (h : (n / d : ℚ) = m * 2 ^ e) : significand n d e = m := by
  obtain ⟨n₁, d₁, hd₁, hvalue, hsig⟩ := significand_eq n hd e
  rw [h, mul_div_cancel_right₀ _ (by positivity), div_eq_iff (by positivity)] at hvalue
  rw [hsig]
  exact divRoundHalfEven_of_dvd hd₁ (by exact_mod_cast hvalue)

/-- A fraction that is a significand times a power of two has the word of that significand and power. -/
theorem roundMag_exact (hd : d ≠ 0) {m : Nat} {e : Int} (hm : m ≠ 0) (hlt : m < 2 ^ 53) (he : -1074 ≤ e)
    (hnormal : 2 ^ 52 ≤ m ∨ e = -1074) (h : (n / d : ℚ) = m * 2 ^ e) :
    roundMag n d = min ((e + 1074).toNat * 2 ^ 52 + m) infBits := by
  have hn : n ≠ 0 := by
    rintro rfl
    rw [Nat.cast_zero, zero_div] at h
    have hpos : (0 : ℚ) < m * 2 ^ e := by positivity
    exact hpos.ne h
  have hexp : exponent n d = e := by
    obtain ⟨hlow, hhigh⟩ := log2Fraction_spec hn hd
    have hbelow : (m : ℚ) * 2 ^ e < 2 ^ (53 + e) := by
      rw [zpow_add₀ (by norm_num)]
      gcongr
      exact_mod_cast hlt
    rw [h] at hlow hhigh
    have hupper := (zpow_lt_zpow_iff_right₀ (by norm_num : (1 : ℚ) < 2)).mp (hlow.trans_lt hbelow)
    rw [exponent]
    rcases hnormal with hfull | rfl
    · have habove : (2 : ℚ) ^ (52 + e) ≤ m * 2 ^ e := by
        rw [zpow_add₀ (by norm_num)]
        gcongr
        exact_mod_cast hfull
      have hlower := (zpow_lt_zpow_iff_right₀ (by norm_num : (1 : ℚ) < 2)).mp (habove.trans_lt hhigh)
      omega
    · omega
  rw [roundMag_eq hn, hexp, significand_exact hd h]

theorem mul_two_pow_div (m j k : Nat) : (((m * 2 ^ j : Nat) : ℚ) / (2 ^ k : Nat)) = m * 2 ^ ((j : Int) - k) := by
  rw [zpow_sub₀ (by norm_num), zpow_natCast, zpow_natCast, ← mul_div_assoc]
  push_cast
  rfl

/-- The magnitude of a finite double rounds to itself. -/
theorem roundMag_units (hx : x.isFinite = true) : roundMag x.units (2 ^ 1074) = x.magBits := by
  have hfinite : x.magBits < infBits := of_decide_eq_true hx
  have hparts := Nat.div_add_mod x.magBits (2 ^ 52)
  have hfrac := Nat.mod_lt x.magBits (by decide : 2 ^ 52 > 0)
  by_cases hzero : x.units = 0
  · rw [hzero, units_eq_zero_iff.mp hzero, roundMag_zero]
  rw [units] at hzero ⊢
  generalize x.magBits / 2 ^ 52 = expo at *
  generalize x.magBits % 2 ^ 52 = frac at *
  have hd : 2 ^ 1074 ≠ 0 := by positivity
  by_cases hsub : expo = 0
  · rw [if_pos hsub] at hzero ⊢
    have hvalue := mul_two_pow_div frac 0 1074
    rw [pow_zero, mul_one, Nat.cast_zero, zero_sub] at hvalue
    rw [roundMag_exact hd hzero (by omega) le_rfl (.inr rfl) hvalue, ← hparts, hsub]
    omega
  · rw [if_neg hsub]
    have hvalue := mul_two_pow_div (2 ^ 52 + frac) (expo - 1) 1074
    rw [show ((expo - 1 : Nat) : Int) - (1074 : Nat) = (expo : Int) - 1075 by omega] at hvalue
    rw [roundMag_exact hd (by omega) (by omega) (by omega) (.inl (by omega)) hvalue, ← hparts]
    omega

/-! ### Rationals -/

/-- The double nearest to a rational. -/
def nearest (q : ℚ) : Float64 := ofFraction (q < 0) q.num.natAbs q.den

/-- The exact value of the double nearest to a rational. -/
def rounded (q : ℚ) : ℚ := (nearest q).toRat

theorem key_ofFraction (neg : Bool) (n d : Nat) :
    (ofFraction neg n d).key = if neg then -(roundMag n d : Int) else roundMag n d := by
  rw [key, magBits_ofFraction, ofFraction, signBit_ofMag _ (lt_of_le_of_lt (roundMag_le n d) infBits_lt)]

theorem natAbs_num_div_den (q : ℚ) : (q.num.natAbs / q.den : ℚ) = |q| := by
  rw [Nat.cast_natAbs, Int.cast_abs, ← Nat.abs_cast q.den, ← abs_div, Rat.num_div_den]

/-- Rounding does not depend on how a fraction is written. -/
theorem roundMag_eq_nearest (hd : d ≠ 0) {q : ℚ} (h : (n / d : ℚ) = |q|) : roundMag n d = roundMag q.num.natAbs q.den := by
  rw [← natAbs_num_div_den q] at h
  exact le_antisymm (roundMag_mono hd q.den_nz h.le) (roundMag_mono q.den_nz hd h.ge)

theorem key_ofFraction_int (n : Int) (hd : d ≠ 0) : (ofFraction (n < 0) n.natAbs d).key = (nearest (n / d)).key := by
  have hdq : (0 : ℚ) < d := by positivity
  have hneg : ((n / d : ℚ) < 0) ↔ n < 0 := by rw [div_lt_iff₀ hdq, zero_mul, Int.cast_lt_zero]
  have hvalue : (n.natAbs / d : ℚ) = |(n / d : ℚ)| := by
    rw [Nat.cast_natAbs, Int.cast_abs, abs_div, Nat.abs_cast]
  rw [nearest, key_ofFraction, key_ofFraction, roundMag_eq_nearest hd hvalue]
  simp only [hneg]

theorem toRat_ofQuotient? {n : Int} (hd : d ≠ 0) (h : ofQuotient? n d = some x) :
    x.isFinite = true ∧ x.signBit = decide (n < 0) ∧ x.toRat = rounded (n / d) := by
  simp only [ofQuotient?] at h
  split_ifs at h with hfinite
  cases h
  refine ⟨hfinite, ?_, ?_⟩
  · rw [ofFraction, signBit_ofMag _ (lt_of_le_of_lt (roundMag_le _ _) infBits_lt)]
  · rw [rounded, toRat_eq_iff, key_ofFraction_int n hd]

theorem key_nearest_mono {q q' : ℚ} (h : q ≤ q') : (nearest q).key ≤ (nearest q').key := by
  have hmag {a b : ℚ} (hab : |a| ≤ |b|) : roundMag a.num.natAbs a.den ≤ roundMag b.num.natAbs b.den := by
    rw [← natAbs_num_div_den, ← natAbs_num_div_den] at hab
    exact roundMag_mono a.den_nz b.den_nz hab
  rw [nearest, nearest, key_ofFraction, key_ofFraction]
  by_cases hq : q < 0
  · by_cases hq' : q' < 0
    · have hle := hmag (a := q') (b := q) (by rw [abs_of_neg hq, abs_of_neg hq']; linarith)
      simp only [hq, hq', decide_true, ↓reduceIte]
      omega
    · simp only [hq, hq', decide_true, decide_false, Bool.false_eq_true, ↓reduceIte]
      omega
  · have hq' : ¬q' < 0 := fun hneg => hq (h.trans_lt hneg)
    have hle := hmag (a := q) (b := q') (by rw [abs_of_nonneg (not_lt.mp hq), abs_of_nonneg (not_lt.mp hq')]; exact h)
    simp only [hq, hq', decide_false, Bool.false_eq_true, ↓reduceIte]
    omega

theorem rounded_mono : Monotone rounded := fun _ _ h => toRat_le_iff.mpr (key_nearest_mono h)

/-- The value of a double rounds to itself. -/
theorem rounded_toRat (hx : x.isFinite = true) : rounded x.toRat = x.toRat := by
  have hkey : (ofFraction (x.signedUnits < 0) x.signedUnits.natAbs (2 ^ 1074)).key = x.key := by
    have habs : x.signedUnits.natAbs = x.units := by
      rw [signedUnits]
      split_ifs <;> omega
    have hzero : x.units = 0 ↔ x.magBits = 0 := units_eq_zero_iff
    rw [habs, key_ofFraction, roundMag_units hx, key, signedUnits]
    by_cases hsign : x.signBit = true
    · rw [if_pos hsign, if_pos hsign]
      by_cases hneg : -(x.units : Int) < 0
      · rw [if_pos (decide_eq_true hneg)]
      · rw [if_neg (by simpa using hneg)]
        omega
    · rw [if_neg hsign, if_neg hsign, if_neg (by simp)]
  have hvalue : x.toRat = x.signedUnits / (2 ^ 1074 : Nat) := by
    rw [toRat_eq_div]
    push_cast
    rfl
  rw [rounded, toRat_eq_iff, ← hkey, key_ofFraction_int _ (by positivity), ← hvalue]

theorem rounded_zero : rounded 0 = 0 := by
  have h := rounded_toRat isFinite_zero
  rwa [toRat_zero] at h

/-! ### Sums and differences -/

theorem toRat_ofUnits (zeroNeg : Bool) (n : Int) : (ofUnits zeroNeg n).toRat = rounded (n / (2 ^ 1074 : Nat)) := by
  rw [rounded, toRat_eq_iff, ← key_ofFraction_int n (by positivity), ofUnits]
  split_ifs with h
  · rw [h, key_ofFraction, Int.natAbs_zero, roundMag_zero, key, magBits_ofMag _ (by decide)]
    simp
  · rfl

theorem toRat_add (hx : x.isFinite = true) (hy : y.isFinite = true) : (x.add y).toRat = rounded (x.toRat + y.toRat) := by
  have hsum : x.toRat + y.toRat = ((x.signedUnits + y.signedUnits : Int) : ℚ) / (2 ^ 1074 : Nat) := by
    rw [toRat_eq_div, toRat_eq_div, ← add_div]
    push_cast
    rfl
  rw [add, isNan_of_isFinite hx, isNan_of_isFinite hy, isInf_of_isFinite hx, isInf_of_isFinite hy, hsum]
  exact toRat_ofUnits _ _

theorem magBits_neg (x : Float64) : x.neg.magBits = x.magBits := magBits_ofMag _ (Nat.mod_lt _ (by decide))

theorem isFinite_neg (hx : x.isFinite = true) : x.neg.isFinite = true := by
  rw [isFinite, magBits_neg]
  exact hx

theorem key_neg (x : Float64) : x.neg.key = -x.key := by
  have hsign : x.neg.signBit = !x.signBit := signBit_ofMag _ (Nat.mod_lt _ (by decide))
  rw [key, key, hsign, magBits_neg]
  cases x.signBit <;> simp

theorem toRat_neg (x : Float64) : x.neg.toRat = -x.toRat := by
  have hsign : x.neg.signBit = !x.signBit := signBit_ofMag _ (Nat.mod_lt _ (by decide))
  have hunits : x.neg.units = x.units := by rw [units, magBits_neg, units]
  have hsigned : x.neg.signedUnits = -x.signedUnits := by
    rw [signedUnits, signedUnits, hsign, hunits]
    cases x.signBit <;> simp
  rw [toRat_eq_div, toRat_eq_div, hsigned, Int.cast_neg, neg_div]

theorem toRat_sub (hx : x.isFinite = true) (hy : y.isFinite = true) : (x.sub y).toRat = rounded (x.toRat - y.toRat) := by
  rw [sub, toRat_add hx (isFinite_neg hy), toRat_neg, sub_eq_add_neg]

theorem rounded_neg (q : ℚ) : rounded (-q) = -rounded q := by
  have hkey : (nearest (-q)).key = (nearest q).neg.key := by
    have hmag := roundMag_eq_nearest (-q).den_nz (q := q) (by rw [natAbs_num_div_den, abs_neg])
    rw [key_neg, nearest, nearest, key_ofFraction, key_ofFraction, hmag]
    rcases lt_trichotomy q 0 with hq | rfl | hq
    · simp [hq, hq.le]
    · simp [roundMag_zero]
    · simp [hq, hq.le]
  rw [rounded, rounded, ← toRat_neg, toRat_eq_iff, hkey]

/-! ### Dyadic numbers -/

/-- A significand of 53 bits times a power of two is the value of a double. -/
theorem exists_units {m : Nat} {j : Nat} (hm : m ≠ 0) (hlt : m < 2 ^ 53) (hj : j ≤ 1900) :
    ∃ mag < infBits, (ofMag false mag).units = m * 2 ^ (j + 52) := by
  have hself := Nat.log2_self_le hm
  have hbits : m.log2 ≤ 52 := by
    have := (Nat.log2_lt hm).mpr hlt
    omega
  -- the significand with its leading one in place 52
  have hfull : 2 ^ 52 ≤ m * 2 ^ (52 - m.log2) := by
    calc 2 ^ 52 = 2 ^ m.log2 * 2 ^ (52 - m.log2) := by rw [← pow_add, Nat.add_sub_cancel' hbits]
      _ ≤ m * 2 ^ (52 - m.log2) := Nat.mul_le_mul_right _ hself
  have hshort : m * 2 ^ (52 - m.log2) < 2 ^ 53 := by
    calc m * 2 ^ (52 - m.log2) < 2 ^ (m.log2 + 1) * 2 ^ (52 - m.log2) :=
          Nat.mul_lt_mul_of_pos_right Nat.lt_log2_self (by positivity)
      _ = 2 ^ 53 := by
        rw [← pow_add]
        congr 1
        omega
  obtain ⟨f, hf⟩ := Nat.exists_eq_add_of_le hfull
  have hflt : f < 2 ^ 52 := by omega
  have hmag : (j + m.log2 + 1) * 2 ^ 52 + f < infBits := by
    have hinf : infBits = 2047 * 2 ^ 52 := by decide
    omega
  refine ⟨(j + m.log2 + 1) * 2 ^ 52 + f, hmag, ?_⟩
  have hexpo : ((j + m.log2 + 1) * 2 ^ 52 + f) / 2 ^ 52 = j + m.log2 + 1 := by omega
  have hfrac : ((j + m.log2 + 1) * 2 ^ 52 + f) % 2 ^ 52 = f := by omega
  rw [units, magBits_ofMag _ (hmag.trans infBits_lt), hexpo, hfrac]
  rw [if_neg (Nat.succ_ne_zero _), ← hf, Nat.add_sub_cancel, mul_assoc, ← pow_add]
  congr 2
  omega

/-- Dyadic numbers of 53 bits are left as they are. -/
theorem rounded_dyadic {k : Int} {j : Int} (hk : k.natAbs < 2 ^ 53) (hlow : -1022 ≤ j) (hhigh : j ≤ 800) :
    rounded (k * 2 ^ j) = k * 2 ^ j := by
  have hnat (m : Nat) (hm : m < 2 ^ 53) : rounded (m * 2 ^ j) = m * 2 ^ j := by
    by_cases h0 : m = 0
    · rw [h0, Nat.cast_zero, zero_mul, rounded_zero]
    · obtain ⟨i, hi⟩ := Int.eq_ofNat_of_zero_le (show 0 ≤ j + 1022 by omega)
      obtain ⟨mag, hmag, hunits⟩ := exists_units h0 hm (show i ≤ 1900 by omega)
      have hvalue : (ofMag false mag).toRat = m * 2 ^ j := by
        have hdiv := mul_two_pow_div m (i + 52) 1074
        rw [show ((i + 52 : Nat) : Int) - (1074 : Nat) = j by omega, ← hunits] at hdiv
        rw [toRat_eq_div, signedUnits, signBit_ofMag _ (hmag.trans infBits_lt), if_neg Bool.false_ne_true, ← hdiv]
        push_cast
        rfl
      rw [← hvalue]
      refine rounded_toRat ?_
      rw [isFinite, magBits_ofMag _ (hmag.trans infBits_lt)]
      exact decide_eq_true hmag
  rcases le_total 0 k with hpos | hneg
  · obtain ⟨m, rfl⟩ := Int.eq_ofNat_of_zero_le hpos
    exact hnat m hk
  · obtain ⟨m, hm⟩ := Int.eq_ofNat_of_zero_le (neg_nonneg.mpr hneg)
    obtain rfl : k = -(m : Int) := by omega
    rw [Int.cast_neg, neg_mul, rounded_neg, Int.cast_natCast, hnat m (by omega)]

theorem rounded_int {k : Int} (hk : k.natAbs < 2 ^ 53) : rounded k = k := by
  have h := rounded_dyadic hk (by norm_num : (-1022 : Int) ≤ 0) (by norm_num)
  rwa [zpow_zero, mul_one] at h

/-! ### Quotients -/

/-- A whole number of 53 bits is a double. -/
theorem ofInt?_exact {n : Int} (hn : n.natAbs < 2 ^ 53) : ∃ x, ofInt? n = some x ∧ x.isFinite = true ∧
    x.signBit = decide (n < 0) ∧ (x.units / (2 ^ 1074 : Nat) : ℚ) = n.natAbs := by
  obtain ⟨x, hx, -⟩ := ofInt?_isSome hn
  obtain ⟨hfin, hsign, hvalue⟩ := toRat_ofQuotient? one_ne_zero hx
  refine ⟨x, hx, hfin, hsign, ?_⟩
  rw [Nat.cast_one, div_one, rounded_int hn] at hvalue
  rw [toRat_eq_div, signedUnits, hsign] at hvalue
  rw [Nat.cast_natAbs, Nat.cast_pow, Nat.cast_ofNat]
  by_cases hneg : n < 0
  · rw [if_pos (decide_eq_true hneg), Int.cast_neg, neg_div, Int.cast_natCast] at hvalue
    rw [abs_of_neg hneg, Int.cast_neg, ← hvalue, neg_neg]
  · rw [if_neg (by simpa using hneg), Int.cast_natCast] at hvalue
    rw [abs_of_nonneg (not_lt.mp hneg), hvalue]

/-- An integer whose double is between zero and one is zero or one. -/
theorem ofInt?_unit {n : Int} (h : ofInt? n = some x) (h0 : 0 ≤ x.toRat) (h1 : x.toRat ≤ 1) : n = 0 ∨ n = 1 := by
  have hvalue := (toRat_ofQuotient? one_ne_zero h).2.2
  rw [Nat.cast_one, div_one] at hvalue
  have hone := rounded_int (show (-1 : Int).natAbs < 2 ^ 53 by decide)
  have htwo := rounded_int (show (2 : Int).natAbs < 2 ^ 53 by decide)
  rw [hvalue] at h0 h1
  have hlow : ¬n ≤ -1 := by
    intro hn
    have hmono := rounded_mono (show (n : ℚ) ≤ (-1 : Int) by exact_mod_cast hn)
    rw [hone] at hmono
    norm_num at hmono
    linarith
  have hhigh : ¬2 ≤ n := by
    intro hn
    have hmono := rounded_mono (show ((2 : Int) : ℚ) ≤ n by exact_mod_cast hn)
    rw [htwo] at hmono
    norm_num at hmono
    linarith
  omega

theorem toRat_scaled {n : Int} {d : Nat} (hn : n.natAbs < 2 ^ 53) (hd : d ≠ 0) (hlt : d < 2 ^ 53) :
    (scaled n d).toRat = rounded (n / d) := by
  obtain ⟨x, hx, hxfin, hxsign, hxunits⟩ := ofInt?_exact hn
  obtain ⟨y, hy, hyfin, hysign, hyunits⟩ := ofInt?_exact (n := d) hlt
  have hscale : ((2 ^ 1074 : Nat) : ℚ) ≠ 0 := by positivity
  rw [div_eq_iff hscale] at hxunits hyunits
  rw [Int.natAbs_natCast] at hyunits
  have hne : y.units ≠ 0 := by
    intro h
    rw [h, Nat.cast_zero, eq_comm, mul_eq_zero, Nat.cast_eq_zero] at hyunits
    exact hyunits.elim hd hscale
  have hdiv : x.div? y = some (ofFraction (x.signBit != y.signBit) x.units y.units) := by
    simp [div?, isNan_of_isFinite, isInf_of_isFinite, hxfin, hyfin, hne]
  have hsign : (x.signBit != y.signBit) = decide (n < 0) := by
    rw [hxsign, hysign, decide_eq_false (by omega : ¬(d : Int) < 0), Bool.bne_false]
  have hvalue : (x.units / y.units : ℚ) = |(n / d : ℚ)| := by
    rw [hxunits, hyunits, mul_div_mul_right _ _ hscale, abs_div, Nat.abs_cast, Nat.cast_natAbs, Int.cast_abs]
  have hneg : ((n / d : ℚ) < 0) ↔ n < 0 := by
    rw [div_lt_iff₀ (by positivity), zero_mul, Int.cast_lt_zero]
  simp only [scaled, hx, hy, hdiv, Option.getD_some]
  rw [rounded, toRat_eq_iff, key_ofFraction, nearest, key_ofFraction, hsign, roundMag_eq_nearest hne hvalue]
  simp only [hneg]

/-! ### The error -/

/-- A moderate number is rounded by less than a millionth. -/
theorem abs_rounded_sub_le {q : ℚ} (hq : |q| ≤ 2 ^ 20) : |rounded q - q| ≤ 2 ^ (-20 : Int) := by
  have hpos : (0 : ℚ) < 2 ^ (-20 : Int) := by positivity
  have hkeep (k : Int) (hk : k.natAbs < 2 ^ 53) : rounded (k * 2 ^ (-20 : Int)) = k * 2 ^ (-20 : Int) :=
    rounded_dyadic hk (by norm_num) (by norm_num)
  have hq' : q = q * 2 ^ 20 * 2 ^ (-20 : Int) := by
    rw [mul_assoc, show (2 : ℚ) ^ 20 * 2 ^ (-20 : Int) = 1 by norm_num, mul_one]
  obtain ⟨hlow, hhigh⟩ := abs_le.mp hq
  have hfloor := Int.floor_le (q * 2 ^ 20)
  have hceil := Int.lt_floor_add_one (q * 2 ^ 20)
  have hsmall : |⌊q * 2 ^ 20⌋| ≤ 2 ^ 40 := by
    rw [abs_le, Int.le_floor, ← Int.cast_le (R := ℚ)]
    push_cast
    exact ⟨by linarith, by linarith⟩
  generalize ⌊q * 2 ^ 20⌋ = k at *
  obtain ⟨hklow, hkhigh⟩ := abs_le.mp hsmall
  -- the dyadics around the number bound its rounding
  have hlower : k * 2 ^ (-20 : Int) ≤ q := by
    rw [hq']
    gcongr
  have hupper : q ≤ (k + 1 : Int) * 2 ^ (-20 : Int) := by
    rw [hq']
    gcongr
    push_cast
    exact hceil.le
  have hbelow := rounded_mono hlower
  have habove := rounded_mono hupper
  rw [hkeep _ (by omega)] at hbelow habove
  push_cast at habove hupper
  rw [abs_le]
  exact ⟨by linarith, by linarith⟩

end Py.Float64
