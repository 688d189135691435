import Mathlib.Algebra.Order.Field.Power
import Mathlib.Data.Rat.Floor
import Mathlib.Algebra.Order.Ring.Int
import Mathlib.Tactic.Ring
import Mathlib.Tactic.Linarith
import Mathlib.Tactic.Positivity
import OrbitOps.Py.Text

/-!
# IEEE 754 doubles

A `float` is its 64-bit word, so every word is a value and no invariant is needed. Magnitudes of
finite doubles are ordered as their low 63 bits are, and every finite double is an integer multiple
of `2 ^ -1074` (`units`). `ofFraction` rounds an exact fraction to the nearest double, ties to even:
the word `(e + 1074) * 2 ^ 52 + m` of a significand `m ≤ 2 ^ 53` carries into the exponent field by
itself, up to infinity.
-/

namespace Py

/-- A double, as its word. -/
structure Float64 where
  bits : BitVec 64
deriving DecidableEq, Repr

namespace Float64

/-- The word of `inf` without its sign. -/
def infBits : Nat := 0x7FF0000000000000

/-- The sign bit. -/
def signBit (x : Float64) : Bool := x.bits.msb

/-- The word without its sign. -/
def magBits (x : Float64) : Nat := x.bits.toNat % 2 ^ 63

def isNan (x : Float64) : Bool := infBits < x.magBits
def isInf (x : Float64) : Bool := x.magBits == infBits

/-- `math.isfinite`. -/
def isFinite (x : Float64) : Bool := x.magBits < infBits

/-- The double with a sign and a word below `2 ^ 63`. -/
def ofMag (neg : Bool) (mag : Nat) : Float64 :=
  ⟨BitVec.ofNat 64 ((if neg then 2 ^ 63 else 0) + mag)⟩

def inf (neg : Bool) : Float64 := ofMag neg infBits
def nan : Float64 := ofMag false (infBits + 2 ^ 51)
def zero : Float64 := ofMag false 0

/-- The magnitude of a finite double in units of `2 ^ -1074`. -/
def units (x : Float64) : Nat :=
  let expo := x.magBits / 2 ^ 52
  let frac := x.magBits % 2 ^ 52
  if expo = 0 then frac else (2 ^ 52 + frac) * 2 ^ (expo - 1)

/-- The exact value of a finite double; `float.as_integer_ratio` is its numerator and denominator. -/
def toRat (x : Float64) : ℚ :=
  mkRat (if x.signBit then -(x.units : Int) else x.units) (2 ^ 1074)

/-! ### Rounding -/

/-- `n / d` rounded to an integer, ties to even. -/
def divRoundHalfEven (n d : Nat) : Nat :=
  let q := n / d
  let r := n % d
  if 2 * r < d ∨ (2 * r = d ∧ q % 2 = 0) then q else q + 1

/-- `⌊log₂ (n / d)⌋` for positive `n` and `d`. -/
def log2Fraction (n d : Nat) : Int :=
  let l := (n.log2 : Int) - d.log2
  let below := if 0 ≤ l then n < d * 2 ^ l.toNat else n * 2 ^ (-l).toNat < d
  if below then l - 1 else l

/-- The word of the double nearest to `n / d`. -/
def roundMag (n d : Nat) : Nat :=
  if n = 0 then 0
  else
    let e := max (log2Fraction n d - 52) (-1074)
    let m := if 0 ≤ e then divRoundHalfEven n (d * 2 ^ e.toNat)
      else divRoundHalfEven (n * 2 ^ (-e).toNat) d
    min ((e + 1074).toNat * 2 ^ 52 + m) infBits

/-- The double nearest to `± n / d`. -/
def ofFraction (neg : Bool) (n d : Nat) : Float64 := ofMag neg (roundMag n d)

/-- The double nearest to `n / d`, or nothing where Python raises `OverflowError`. -/
def ofQuotient? (n : Int) (d : Nat) : Option Float64 :=
  let x := ofFraction (n < 0) n.natAbs d
  if x.isFinite then some x else none

/-- `float(n)` for an integer; nothing stands for `OverflowError`. -/
def ofInt? (n : Int) : Option Float64 := ofQuotient? n 1

/-! ### Order -/

/-- An integer that orders the doubles other than `nan`; both zeros are `0`. -/
def key (x : Float64) : Int := if x.signBit then -(x.magBits : Int) else x.magBits

/-- `x <= y`. -/
def le (x y : Float64) : Bool := !x.isNan && !y.isNan && decide (x.key ≤ y.key)

/-- `x < y`. -/
def lt (x y : Float64) : Bool := !x.isNan && !y.isNan && decide (x.key < y.key)

/-- `max(x, y)`, which keeps its first argument unless the second is greater. -/
def pyMax (x y : Float64) : Float64 := if x.lt y then y else x

/-- `min(x, y)`, which keeps its first argument unless the second is less. -/
def pyMin (x y : Float64) : Float64 := if y.lt x then y else x

/-! ### Arithmetic -/

def neg (x : Float64) : Float64 := ofMag (!x.signBit) x.magBits

/-- The double nearest to `n * 2 ^ -1074`; an exact zero takes the sign `zeroNeg`. -/
def ofUnits (zeroNeg : Bool) (n : Int) : Float64 :=
  if n = 0 then ofMag zeroNeg 0 else ofFraction (n < 0) n.natAbs (2 ^ 1074)

/-- The magnitude of a finite double with its sign, in units of `2 ^ -1074`. -/
def signedUnits (x : Float64) : Int := if x.signBit then -(x.units : Int) else x.units

def add (x y : Float64) : Float64 :=
  if x.isNan || y.isNan then nan
  else if x.isInf then (if y.isInf && x.signBit != y.signBit then nan else x)
  else if y.isInf then y
  else ofUnits (x.signBit && y.signBit) (x.signedUnits + y.signedUnits)

def sub (x y : Float64) : Float64 := add x y.neg

/-- `x / y`; nothing stands for `ZeroDivisionError`. -/
def div? (x y : Float64) : Option Float64 :=
  if x.isNan || y.isNan then some nan
  else if y.isFinite && y.units == 0 then none
  else if x.isInf then some (if y.isInf then nan else inf (x.signBit != y.signBit))
  else if y.isInf then some (ofMag (x.signBit != y.signBit) 0)
  else some (ofFraction (x.signBit != y.signBit) x.units y.units)

/-- An integer divided by a positive whole `float` literal, as `n / 1000.0`. -/
def scaled (n : Int) (d : Nat) : Float64 :=
  match ofInt? n, ofInt? d with
  | some x, some y => (x.div? y).getD nan
  | _, _ => nan

/-! ### Finiteness and range -/

theorem magBits_ofMag (neg : Bool) {mag : Nat} (h : mag < 2 ^ 63) : (ofMag neg mag).magBits = mag := by
  cases neg <;> simp [ofMag, magBits] <;> omega

theorem signBit_ofMag (neg : Bool) {mag : Nat} (h : mag < 2 ^ 63) : (ofMag neg mag).signBit = neg := by
  rw [signBit, ofMag, BitVec.msb_eq_decide, BitVec.toNat_ofNat]
  cases neg <;> simp <;> omega

theorem roundMag_le (n d : Nat) : roundMag n d ≤ infBits := by
  unfold roundMag
  split
  · exact Nat.zero_le _
  · exact Nat.min_le_right _ _

theorem infBits_lt : infBits < 2 ^ 63 := by decide

theorem magBits_ofFraction (neg : Bool) (n d : Nat) : (ofFraction neg n d).magBits = roundMag n d :=
  magBits_ofMag neg (Nat.lt_of_le_of_lt (roundMag_le n d) infBits_lt)

theorem isFinite_ofFraction (neg : Bool) (n d : Nat) :
    (ofFraction neg n d).isFinite = decide (roundMag n d < infBits) := by
  rw [isFinite, magBits_ofFraction]

theorem divRoundHalfEven_le (n d : Nat) : divRoundHalfEven n d ≤ n / d + 1 := by
  unfold divRoundHalfEven
  dsimp only
  split <;> omega

theorem log2Fraction_spec {n d : Nat} (hn : n ≠ 0) (hd : d ≠ 0) :
    (2 : ℚ) ^ log2Fraction n d ≤ n / d ∧ (n / d : ℚ) < 2 ^ (log2Fraction n d + 1) := by
  have hdq : (0 : ℚ) < d := by positivity
  have hn1 : ((2 ^ n.log2 : Nat) : ℚ) ≤ n := by exact_mod_cast Nat.log2_self_le hn
  have hn2 : (n : ℚ) < ((2 ^ (n.log2 + 1) : Nat) : ℚ) := by exact_mod_cast Nat.lt_log2_self
  have hd1 : ((2 ^ d.log2 : Nat) : ℚ) ≤ d := by exact_mod_cast Nat.log2_self_le hd
  have hd2 : (d : ℚ) < ((2 ^ (d.log2 + 1) : Nat) : ℚ) := by exact_mod_cast Nat.lt_log2_self
  push_cast at hn1 hn2 hd1 hd2
  set l : Int := (n.log2 : Int) - d.log2 with hl
  have hup : (n : ℚ) / d < 2 ^ (l + 1) := by
    rw [div_lt_iff₀ hdq]
    calc (n : ℚ) < 2 ^ (n.log2 + 1) := hn2
      _ = 2 ^ (l + 1) * 2 ^ d.log2 := by
        rw [← zpow_natCast, ← zpow_natCast, ← zpow_add₀ (by norm_num)]
        congr 1
        push_cast
        omega
      _ ≤ 2 ^ (l + 1) * d := by gcongr
  have hlow : (2 : ℚ) ^ (l - 1) ≤ n / d := by
    rw [le_div_iff₀ hdq]
    calc (2 : ℚ) ^ (l - 1) * d ≤ 2 ^ (l - 1) * 2 ^ (d.log2 + 1) := by gcongr
      _ = 2 ^ n.log2 := by
        rw [← zpow_natCast, ← zpow_natCast, ← zpow_add₀ (by norm_num)]
        congr 1
        push_cast
        omega
      _ ≤ n := hn1
  have hbelow : (if 0 ≤ l then n < d * 2 ^ l.toNat else n * 2 ^ (-l).toNat < d) ↔ (n : ℚ) / d < 2 ^ l := by
    rw [div_lt_iff₀ hdq]
    split
    · rename_i h
      obtain ⟨k, hk⟩ := Int.eq_ofNat_of_zero_le h
      rw [hk, Int.toNat_natCast, zpow_natCast, mul_comm]
      exact_mod_cast Iff.rfl
    · rename_i h
      obtain ⟨k, hk⟩ := Int.eq_ofNat_of_zero_le (show 0 ≤ -l by omega)
      rw [hk, Int.toNat_natCast, show l = -(k : Int) by omega, zpow_neg, zpow_natCast,
        ← div_eq_inv_mul, lt_div_iff₀ (by positivity)]
      exact_mod_cast Iff.rfl
  by_cases hb : (n : ℚ) / d < 2 ^ l
  · have : log2Fraction n d = l - 1 := by
      unfold log2Fraction
      simp only [← hl, hbelow, hb, ↓reduceIte]
    rw [this, sub_add_cancel]
    exact ⟨hlow, hb⟩
  · have : log2Fraction n d = l := by
      unfold log2Fraction
      simp only [← hl, hbelow, hb, ↓reduceIte]
    rw [this]
    exact ⟨not_lt.mp hb, hup⟩

/-- The significand that `roundMag` rounds to is at most `2 ^ 53`. -/
theorem significand_le {n d : Nat} {e : Int} (hn : n ≠ 0) (hd : d ≠ 0) (he : log2Fraction n d - 52 ≤ e) :
    (if 0 ≤ e then divRoundHalfEven n (d * 2 ^ e.toNat) else divRoundHalfEven (n * 2 ^ (-e).toNat) d)
      ≤ 2 ^ 53 := by
  have hdq : (0 : ℚ) < d := by positivity
  have hlt : (n : ℚ) / d < 2 ^ (e + 53) :=
    lt_of_lt_of_le (log2Fraction_spec hn hd).2 (zpow_le_zpow_right₀ (by norm_num) (by omega))
  rw [div_lt_iff₀ hdq, zpow_add₀ (by norm_num)] at hlt
  split
  · rename_i h
    obtain ⟨k, hk⟩ := Int.eq_ofNat_of_zero_le h
    rw [hk, Int.toNat_natCast]
    rw [hk, zpow_natCast] at hlt
    have hlt' : n < 2 ^ k * 2 ^ 53 * d := by exact_mod_cast hlt
    have : n / (d * 2 ^ k) < 2 ^ 53 := Nat.div_lt_of_lt_mul (by linarith [hlt'])
    have := divRoundHalfEven_le n (d * 2 ^ k)
    omega
  · rename_i h
    obtain ⟨k, hk⟩ := Int.eq_ofNat_of_zero_le (show 0 ≤ -e by omega)
    rw [hk, Int.toNat_natCast]
    rw [show e = -(k : Int) by omega, zpow_neg, zpow_natCast, mul_assoc, ← div_eq_inv_mul,
      lt_div_iff₀ (by positivity)] at hlt
    have hlt' : n * 2 ^ k < 2 ^ 53 * d := by exact_mod_cast hlt
    have : n * 2 ^ k / d < 2 ^ 53 := Nat.div_lt_of_lt_mul (by linarith [hlt'])
    have := divRoundHalfEven_le (n * 2 ^ k) d
    omega

/-- A fraction below `2 ^ 1000` rounds to a finite double. -/
theorem roundMag_lt {n d : Nat} {j : Nat} (hd : d ≠ 0) (hj : j ≤ 1000) (h : n < d * 2 ^ j) :
    roundMag n d < (j + 1076) * 2 ^ 52 := by
  unfold roundMag
  split
  · positivity
  · rename_i hn
    have hk : log2Fraction n d < j := by
      have hq : (n : ℚ) / d < 2 ^ (j : Int) := by
        rw [div_lt_iff₀ (by positivity), zpow_natCast, mul_comm]
        exact_mod_cast h
      exact (zpow_lt_zpow_iff_right₀ (by norm_num : (1 : ℚ) < 2)).mp
        (lt_of_le_of_lt (log2Fraction_spec hn hd).1 hq)
    have hm := significand_le hn hd (le_max_left (log2Fraction n d - 52) (-1074))
    refine lt_of_le_of_lt (Nat.min_le_left _ _) ?_
    have he : (max (log2Fraction n d - 52) (-1074) + 1074).toNat ≤ j + 1022 := by omega
    calc _ ≤ (j + 1022) * 2 ^ 52 + 2 ^ 53 := by gcongr
      _ < _ := by omega

theorem isFinite_ofFraction_of_lt (neg : Bool) {n d : Nat} (hd : d ≠ 0) (h : n < d * 2 ^ 900) :
    (ofFraction neg n d).isFinite = true := by
  rw [isFinite_ofFraction, decide_eq_true_eq]
  exact lt_of_lt_of_le (roundMag_lt hd (by norm_num) h) (by decide)

theorem units_lt {x : Float64} {j : Nat} (h : x.magBits < (j + 1) * 2 ^ 52) : x.units < 2 ^ (53 + j) := by
  have hf : x.magBits % 2 ^ 52 < 2 ^ 52 := Nat.mod_lt _ (by decide)
  have he : x.magBits / 2 ^ 52 < j + 1 := Nat.div_lt_of_lt_mul (by omega)
  unfold units
  dsimp only
  split
  · exact lt_of_lt_of_le hf (Nat.pow_le_pow_right (by decide) (by omega))
  · calc _ < (2 ^ 52 + 2 ^ 52) * 2 ^ (x.magBits / 2 ^ 52 - 1) := by gcongr
      _ ≤ 2 ^ 53 * 2 ^ j := Nat.mul_le_mul (by decide) (Nat.pow_le_pow_right (by decide) (by omega))
      _ = _ := by rw [pow_add]

theorem ofInt?_isSome {n : Int} (hn : n.natAbs < 2 ^ 53) :
    ∃ x, ofInt? n = some x ∧ x.isFinite = true ∧ x.units < 2 ^ 1181 := by
  have hlt : n.natAbs < 1 * 2 ^ 53 := by omega
  have hfin : (ofFraction (n < 0) n.natAbs 1).isFinite = true :=
    isFinite_ofFraction_of_lt _ one_ne_zero (lt_of_lt_of_le hlt (Nat.mul_le_mul_left _ (Nat.pow_le_pow_right (by decide) (by decide))))
  refine ⟨_, ?_, hfin, ?_⟩
  · simp only [ofInt?, ofQuotient?, hfin, ↓reduceIte]
  · refine units_lt (j := 1128) ?_
    rw [magBits_ofFraction]
    exact roundMag_lt one_ne_zero (by norm_num) hlt

theorem isNan_of_isFinite {x : Float64} (h : x.isFinite = true) : x.isNan = false := by
  simp only [isFinite, isNan, decide_eq_true_eq, decide_eq_false_iff_not] at *
  omega

/-- A positive fraction that is not too small does not round to zero. -/
theorem roundMag_pos {n d : Nat} (hn : n ≠ 0) (hd : d ≠ 0) (h : d < 2 ^ 1000) : 0 < roundMag n d := by
  have hexp : -1001 ≤ log2Fraction n d := by
    by_contra hlow
    have hlt := (log2Fraction_spec hn hd).2
    have hpow : (2 : ℚ) ^ (log2Fraction n d + 1) ≤ 2 ^ (-(1000 : Nat) : Int) :=
      zpow_le_zpow_right₀ (by norm_num) (by omega)
    have hq : (1 : ℚ) / d ≤ n / d := by
      gcongr
      exact_mod_cast Nat.one_le_iff_ne_zero.mpr hn
    have hsmall := hq.trans_lt (hlt.trans_le hpow)
    rw [zpow_neg, zpow_natCast, one_div] at hsmall
    have hd' : (d : ℚ) < 2 ^ 1000 := by exact_mod_cast h
    have := inv_strictAnti₀ (by positivity : (0 : ℚ) < d) hd'
    exact lt_asymm this hsmall
  rw [roundMag, if_neg hn]
  have he : 0 < (max (log2Fraction n d - 52) (-1074) + 1074).toNat := by omega
  exact lt_min (Nat.lt_add_right _ (Nat.mul_pos he (by positivity))) (by decide)

/-- A positive quotient that fits a float is a positive float. -/
theorem zero_lt_of_ofQuotient? {n : Int} {d : Nat} {x : Float64} (hn : 0 < n) (hd : d ≠ 0) (h : d < 2 ^ 1000)
    (hx : ofQuotient? n d = some x) : zero.lt x = true := by
  have hneg : decide (n < 0) = false := decide_eq_false (by omega)
  simp only [ofQuotient?, hneg, Option.ite_none_right_eq_some, Option.some.injEq] at hx
  obtain ⟨hfin, rfl⟩ := hx
  have hmag := magBits_ofFraction false n.natAbs d
  have hpos := roundMag_pos (by omega : n.natAbs ≠ 0) hd h
  have hnan := isNan_of_isFinite hfin
  have hsign : (ofFraction false n.natAbs d).signBit = false :=
    signBit_ofMag false (Nat.lt_of_le_of_lt (roundMag_le n.natAbs d) infBits_lt)
  have hkey : (ofFraction false n.natAbs d).key = roundMag n.natAbs d := by
    rw [key, hsign, hmag]
    rfl
  have hzero : zero.isNan = false := by decide
  have hkey0 : zero.key = 0 := by decide
  simp [lt, hnan, hzero, hkey, hkey0, hpos]

theorem le_of_lt {x y : Float64} (h : x.lt y = true) : x.le y = true := by
  simp only [lt, Bool.and_eq_true, decide_eq_true_eq] at h
  simp only [le, Bool.and_eq_true, decide_eq_true_eq]
  exact ⟨h.1, h.2.le⟩

theorem le_self_of_lt {x y : Float64} (h : x.lt y = true) : y.le y = true := by
  simp only [lt, Bool.and_eq_true, decide_eq_true_eq] at h
  simp only [le, Bool.and_eq_true, decide_eq_true_eq]
  exact ⟨⟨h.1.2, h.1.2⟩, le_rfl⟩

/-- The smaller of two positive floats is positive and at most the first. -/
theorem pyMin_pos {x y : Float64} (hx : zero.lt x = true) (hy : zero.lt y = true) :
    zero.lt (x.pyMin y) = true ∧ (x.pyMin y).le x = true := by
  unfold pyMin
  split_ifs with h
  · exact ⟨hy, le_of_lt h⟩
  · exact ⟨hx, le_self_of_lt hx⟩

theorem isInf_of_isFinite {x : Float64} (h : x.isFinite = true) : x.isInf = false := by
  simp only [isFinite, isInf, decide_eq_true_eq, beq_eq_false_iff_ne] at *
  omega

/-- A small integer divided by a literal is finite. -/
theorem isFinite_scaled {n : Int} {d : Nat} {y : Float64} (hn : n.natAbs < 2 ^ 53)
    (hy : ofInt? d = some y) (hfin : y.isFinite = true) (hunits : 2 ^ 300 ≤ y.units) :
    (scaled n d).isFinite = true := by
  obtain ⟨x, hx, hxf, hxu⟩ := ofInt?_isSome hn
  have hne : y.units ≠ 0 := Nat.ne_of_gt (lt_of_lt_of_le (by positivity) hunits)
  have hdiv : x.div? y = some (ofFraction (x.signBit != y.signBit) x.units y.units) := by
    simp [div?, isNan_of_isFinite, isInf_of_isFinite, hxf, hfin, hne]
  simp only [scaled, hx, hy, hdiv, Option.getD_some]
  refine isFinite_ofFraction_of_lt _ hne (lt_of_lt_of_le hxu ?_)
  calc 2 ^ 1181 ≤ 2 ^ 300 * 2 ^ 900 := by
        rw [← pow_add]; exact Nat.pow_le_pow_right (by decide) (by decide)
    _ ≤ y.units * 2 ^ 900 := by gcongr

theorem isFinite_scaled_100 {n : Int} (hn : n.natAbs < 2 ^ 53) : (scaled n 100).isFinite = true :=
  isFinite_scaled (y := ⟨4636737291354636288#64⟩) hn (by decide +kernel) (by decide +kernel) (by decide +kernel)

theorem isFinite_scaled_1000 {n : Int} (hn : n.natAbs < 2 ^ 53) : (scaled n 1000).isFinite = true :=
  isFinite_scaled (y := ⟨4652007308841189376#64⟩) hn (by decide +kernel) (by decide +kernel) (by decide +kernel)

end Float64

end Py
