import OrbitOps.Py.DigitText
import OrbitOps.Py.Rounding

/-!
# Doubles are read back from their text

Seventeen digits tell a double from its neighbours: a decimal of that length is nearer to it than half
the gap on either side, so it rounds back. `shortestDecimal` therefore always finds a decimal, and
the text of `repr` is one of its spellings.
-/

namespace Py.Float64
variable {x : Float64} {n d m : Nat} {e : Int}

/-! ### Rounding near a double -/

theorem divRoundHalfEven_near (hd : d ≠ 0) (hlow : (2 * m : ℚ) < 2 * (n / d) + 1) (hhigh : (2 * (n / d) : ℚ) < 2 * m + 1) :
    divRoundHalfEven n d = m := by
  obtain ⟨hup, hdown, -⟩ := divRoundHalfEven_spec (n := n) hd
  generalize divRoundHalfEven n d = r at *
  have hle : (r : ℚ) < m + 1 := by linarith
  have hge : (m : ℚ) < r + 1 := by linarith
  have hle' : r < m + 1 := by exact_mod_cast hle
  have hge' : m < r + 1 := by exact_mod_cast hge
  omega

theorem significand_near (hd : d ≠ 0) (hlow : (m - 1 / 2 : ℚ) * 2 ^ e < n / d) (hhigh : (n / d : ℚ) < (m + 1 / 2) * 2 ^ e) :
    significand n d e = m := by
  obtain ⟨n₁, d₁, hd₁, hvalue, hsig⟩ := significand_eq n hd e
  have hpow : (0 : ℚ) < 2 ^ e := by positivity
  rw [← lt_div_iff₀ hpow, ← hvalue] at hlow
  rw [← div_lt_iff₀ hpow, ← hvalue] at hhigh
  rw [hsig]
  exact divRoundHalfEven_near hd₁ (by linarith) (by linarith)

theorem exponent_eq (hn : n ≠ 0) (hd : d ≠ 0) (he : -1074 ≤ e) (hhigh : (n / d : ℚ) < 2 ^ (53 + e))
    (hlow : (2 : ℚ) ^ (52 + e) ≤ n / d ∨ e = -1074) : exponent n d = e := by
  obtain ⟨hl, hh⟩ := log2Fraction_spec hn hd
  have hupper := (zpow_lt_zpow_iff_right₀ (by norm_num : (1 : ℚ) < 2)).mp (hl.trans_lt hhigh)
  rw [exponent]
  rcases hlow with hlow | rfl
  · have hlower := (zpow_lt_zpow_iff_right₀ (by norm_num : (1 : ℚ) < 2)).mp (hlow.trans_lt hh)
    omega
  · omega

/-- A fraction that is off from a double by less than a part in `2 * 10 ^ 16` rounds to it. -/
theorem roundMag_near (hd : d ≠ 0) (hm : m ≠ 0) (hlt : m < 2 ^ 53) (he : -1074 ≤ e) (hnormal : 2 ^ 52 ≤ m ∨ e = -1074)
    (hlow : (m * 2 ^ e : ℚ) * (1 - 1 / (2 * 10 ^ 16)) ≤ n / d) (hhigh : (n / d : ℚ) ≤ m * 2 ^ e * (1 + 1 / (2 * 10 ^ 16))) :
    roundMag n d = min ((e + 1074).toNat * 2 ^ 52 + m) infBits := by
  have hpow : (0 : ℚ) < 2 ^ e := by positivity
  have hmq : (0 : ℚ) < m := by positivity
  have hle : (m + 1 : ℚ) ≤ 2 ^ 53 := by exact_mod_cast hlt
  have hn : n ≠ 0 := by
    rintro rfl
    rw [Nat.cast_zero, zero_div] at hlow
    have hpos : (0 : ℚ) < m * 2 ^ e * (1 - 1 / (2 * 10 ^ 16)) := by
      refine mul_pos (mul_pos hmq hpow) ?_
      norm_num
    exact absurd hlow (not_le.mpr hpos)
  have habove : (n / d : ℚ) < (m + 1 / 2) * 2 ^ e := by
    refine hhigh.trans_lt ?_
    rw [mul_right_comm]
    gcongr
    linarith
  have hbelow : (m - 1 / 2 : ℚ) * 2 ^ e < n / d := by
    refine lt_of_lt_of_le ?_ hlow
    rw [mul_right_comm]
    gcongr
    linarith
  have hbound : (n / d : ℚ) < 2 ^ (53 + e) := by
    rw [zpow_add₀ (by norm_num)]
    refine habove.trans ?_
    gcongr
    norm_num at hle ⊢
    linarith
  rw [roundMag_eq hn]
  by_cases hfull : (2 : ℚ) ^ (52 + e) ≤ n / d ∨ e = -1074
  · rw [exponent_eq hn hd he hbound hfull, significand_near hd hbelow habove]
  -- below a power of two the gap is half as large, and the significand is the greatest one
  rw [not_or, not_le] at hfull
  obtain ⟨hsmall, hsub⟩ := hfull
  have hm52 : m = 2 ^ 52 := by
    have hge : 2 ^ 52 ≤ m := hnormal.resolve_right hsub
    have hlt' : (m - 1 / 2 : ℚ) * 2 ^ e < 2 ^ 52 * 2 ^ e := by
      refine hbelow.trans (hsmall.trans_eq ?_)
      rw [zpow_add₀ (by norm_num)]
      norm_num
    have hmlt := lt_of_mul_lt_mul_right hlt' hpow.le
    have hmlt' : (m : ℚ) < (2 ^ 52 + 1 : Nat) := by
      push_cast
      linarith
    have hmle : m < 2 ^ 52 + 1 := by exact_mod_cast hmlt'
    omega
  have hhalf : (2 : ℚ) ^ e = 2 * 2 ^ (e - 1) := by
    rw [← zpow_one_add₀ (by norm_num)]
    congr 1
    ring
  have hprev : (0 : ℚ) < 2 ^ (e - 1) := by positivity
  have hexp : exponent n d = e - 1 := by
    refine exponent_eq hn hd (by omega) ?_ (.inl ?_)
    · rwa [show 53 + (e - 1) = 52 + e by ring]
    · refine le_trans ?_ hbelow.le
      rw [zpow_add₀ (by norm_num), hhalf, hm52]
      push_cast
      rw [← mul_assoc]
      gcongr
      norm_num
  have hsig : significand n d (e - 1) = 2 ^ 53 := by
    refine significand_near hd ?_ ?_
    · refine lt_of_lt_of_le ?_ hlow
      rw [hm52, hhalf]
      push_cast
      rw [← mul_assoc, mul_right_comm]
      gcongr
      norm_num
    · refine hsmall.trans ?_
      rw [show 52 + e = 53 + (e - 1) by ring, zpow_add₀ (by norm_num)]
      gcongr
      norm_num
  have hcarry : (e - 1 + 1074).toNat * 2 ^ 52 + 2 ^ 53 = (e + 1074).toNat * 2 ^ 52 + 2 ^ 52 := by omega
  rw [hexp, hsig, hm52, hcarry]

/-- The significand and the exponent of a finite double. -/
theorem exists_significand (h0 : x.units ≠ 0) : ∃ (m : Nat) (e : Int), m ≠ 0 ∧ m < 2 ^ 53 ∧
    -1074 ≤ e ∧ (2 ^ 52 ≤ m ∨ e = -1074) ∧ (x.units / (2 ^ 1074 : Nat) : ℚ) = m * 2 ^ e := by
  have hfrac := Nat.mod_lt x.magBits (by decide : 2 ^ 52 > 0)
  rw [units] at h0 ⊢
  generalize x.magBits / 2 ^ 52 = expo at *
  generalize x.magBits % 2 ^ 52 = frac at *
  by_cases hsub : expo = 0
  · rw [if_pos hsub] at h0 ⊢
    have hvalue := mul_two_pow_div frac 0 1074
    rw [pow_zero, mul_one, Nat.cast_zero, zero_sub] at hvalue
    exact ⟨frac, -1074, h0, by omega, le_rfl, .inr rfl, hvalue⟩
  · rw [if_neg hsub]
    have hvalue := mul_two_pow_div (2 ^ 52 + frac) (expo - 1) 1074
    rw [show ((expo - 1 : Nat) : Int) - (1074 : Nat) = (expo : Int) - 1075 by omega] at hvalue
    exact ⟨2 ^ 52 + frac, expo - 1075, by omega, by omega, by omega, .inl (by omega), hvalue⟩

theorem roundMag_near_units (hx : x.isFinite = true) (h0 : x.units ≠ 0) (hd : d ≠ 0)
    (hlow : (x.units / (2 ^ 1074 : Nat) : ℚ) * (1 - 1 / (2 * 10 ^ 16)) ≤ n / d)
    (hhigh : (n / d : ℚ) ≤ x.units / (2 ^ 1074 : Nat) * (1 + 1 / (2 * 10 ^ 16))) : roundMag n d = x.magBits := by
  obtain ⟨m, e, hm, hlt, he, hnormal, hvalue⟩ := exists_significand h0
  rw [← roundMag_units hx, roundMag_exact (by positivity) hm hlt he hnormal hvalue]
  rw [hvalue] at hlow hhigh
  exact roundMag_near hd hm hlt he hnormal hlow hhigh

/-! ### Decimals -/

/-- The exact value of a decimal. -/
def decimal (c : Nat) (s : Int) : ℚ := c * 10 ^ (-s)

theorem decimalMag_eq (c : Nat) (s : Int) : ∃ n d : Nat, d ≠ 0 ∧ (n / d : ℚ) = decimal c s ∧ decimalMag c s = roundMag n d := by
  rw [decimalMag, decimal]
  split_ifs with h
  · obtain ⟨k, rfl⟩ := Int.eq_ofNat_of_zero_le h
    refine ⟨c, 10 ^ k, by positivity, ?_, rfl⟩
    rw [zpow_neg, zpow_natCast, div_eq_mul_inv]
    push_cast
    rfl
  · obtain ⟨k, hk⟩ := Int.eq_ofNat_of_zero_le (show 0 ≤ -s by omega)
    refine ⟨c * 10 ^ k, 1, one_ne_zero, ?_, by rw [hk]; rfl⟩
    rw [hk, zpow_natCast]
    push_cast
    rw [div_one]

/-- Decimals of one value have one word. -/
theorem decimalMag_congr {c c' : Nat} {s s' : Int} (h : decimal c s = decimal c' s') : decimalMag c s = decimalMag c' s' := by
  obtain ⟨n, d, hd, hvalue, hmag⟩ := decimalMag_eq c s
  obtain ⟨n', d', hd', hvalue', hmag'⟩ := decimalMag_eq c' s'
  rw [hmag, hmag']
  refine le_antisymm (roundMag_mono hd hd' ?_) (roundMag_mono hd' hd ?_)
  · rw [hvalue, hvalue', h]
  · rw [hvalue, hvalue', h]

theorem decimalMag_zero (s : Int) : decimalMag 0 s = 0 := by
  rw [decimalMag, Nat.zero_mul, roundMag_zero, roundMag_zero, ite_self]

theorem natDigits_length {n : Nat} (h : n ≠ 0) : 10 ^ ((natDigits n).length - 1) ≤ n ∧ n < 10 ^ (natDigits n).length := by
  have hpos : 0 < (natDigits n).length := Nat.length_toDigits_pos
  refine ⟨?_, (Nat.length_toDigits_le_iff (by decide) hpos).mp le_rfl⟩
  by_cases hone : (natDigits n).length = 1
  · rw [hone]
    exact Nat.one_le_iff_ne_zero.mpr h
  · by_contra hlt
    have hle := (Nat.length_toDigits_le_iff (b := 10) (by decide) (by omega)).mpr (not_le.mp hlt)
    exact absurd (show (natDigits n).length ≤ _ from hle) (by omega)

/-- The decimal point is where it says. -/
theorem decimalPoint_spec (hn : n ≠ 0) (hd : d ≠ 0) :
    (10 : ℚ) ^ (decimalPoint n d - 1) ≤ n / d ∧ (n / d : ℚ) < 10 ^ decimalPoint n d := by
  have hnq : (0 : ℚ) < n := by positivity
  have hdq : (0 : ℚ) < d := by positivity
  rw [decimalPoint]
  split_ifs with hle
  · obtain ⟨hlow, hhigh⟩ := natDigits_length (Nat.div_pos hle (Nat.pos_of_ne_zero hd)).ne'
    have hpos : 0 < (natDigits (n / d)).length := Nat.length_toDigits_pos
    generalize (natDigits (n / d)).length = l at *
    refine ⟨?_, ?_⟩
    · rw [show (l : Int) - 1 = (l - 1 : Nat) by omega, zpow_natCast, le_div_iff₀ hdq]
      exact_mod_cast (Nat.le_div_iff_mul_le (Nat.pos_of_ne_zero hd)).mp hlow
    · rw [zpow_natCast, div_lt_iff₀ hdq]
      exact_mod_cast (Nat.div_lt_iff_lt_mul (Nat.pos_of_ne_zero hd)).mp hhigh
  · have hceil : d ≤ (d + n - 1) / n * n ∧ ((d + n - 1) / n - 1) * n < d := by
      have hdm := Nat.div_add_mod (d + n - 1) n
      have hmod := Nat.mod_lt (d + n - 1) (Nat.pos_of_ne_zero hn)
      rw [Nat.sub_mul, one_mul, mul_comm ((d + n - 1) / n)]
      omega
    have htwo : 2 ≤ (d + n - 1) / n := by
      rw [Nat.le_div_iff_mul_le (Nat.pos_of_ne_zero hn)]
      omega
    obtain ⟨hlow, hhigh⟩ := natDigits_length (show (d + n - 1) / n - 1 ≠ 0 by omega)
    have hpos : 0 < (natDigits ((d + n - 1) / n - 1)).length := Nat.length_toDigits_pos
    generalize (natDigits ((d + n - 1) / n - 1)).length = l at *
    generalize (d + n - 1) / n = c at *
    refine ⟨?_, ?_⟩
    · rw [show 1 - (l : Int) - 1 = -(l : Int) by ring, zpow_neg, zpow_natCast, inv_le_iff_one_le_mul₀ (by positivity),
        div_mul_eq_mul_div, one_le_div hdq, mul_comm]
      have hnat : d ≤ 10 ^ l * n := hceil.1.trans (Nat.mul_le_mul_right _ (by omega))
      exact_mod_cast hnat
    · rw [show 1 - (l : Int) = -((l - 1 : Nat) : Int) by omega, zpow_neg, zpow_natCast, lt_inv_comm₀ (by positivity) (by positivity),
        inv_div, lt_div_iff₀ hnq]
      have hnat : 10 ^ (l - 1) * n < d := (Nat.mul_le_mul_right _ hlow).trans_lt hceil.2
      exact_mod_cast hnat

theorem decimalAt_sound {mag k c : Nat} {s : Int} (h : decimalAt mag n d k = some (c, s)) : decimalMag c s = mag := by
  unfold decimalAt at h
  dsimp only at h
  split_ifs at h <;> cases h <;> assumption

/-- An integer next to a number of seventeen digits, scaled back. -/
theorem near_of_scaled {v p c : ℚ} (hp : 0 < p) (hunit : 10 ^ 16 ≤ v * p) (hup : 2 * c ≤ 2 * (v * p) + 1)
    (hdown : 2 * (v * p) ≤ 2 * c + 1) :
    v * (1 - 1 / (2 * 10 ^ 16)) ≤ c / p ∧ c / p ≤ v * (1 + 1 / (2 * 10 ^ 16)) := by
  rw [le_div_iff₀ hp, div_le_iff₀ hp]
  constructor <;> linarith

/-- Seventeen digits are enough. -/
theorem decimalAt_seventeen (hx : x.isFinite = true) (h0 : x.units ≠ 0) :
    (decimalAt x.magBits x.units (2 ^ 1074) 17).isSome = true := by
  have hd : 2 ^ 1074 ≠ 0 := by positivity
  obtain ⟨hlow, -⟩ := decimalPoint_spec h0 hd
  unfold decimalAt
  generalize hs : ((17 : Nat) : Int) - decimalPoint x.units (2 ^ 1074) = s
  have hpow : (0 : ℚ) < 10 ^ s := by positivity
  have hunit : (10 : ℚ) ^ 16 ≤ x.units / (2 ^ 1074 : Nat) * 10 ^ s := by
    rw [show decimalPoint x.units (2 ^ 1074) - 1 = 16 - s by omega, zpow_sub₀ (by norm_num), div_le_iff₀ hpow] at hlow
    exact_mod_cast hlow
  set num := if 0 ≤ s then x.units * 10 ^ s.toNat else x.units with hnum
  set den := if 0 ≤ s then 2 ^ 1074 else 2 ^ 1074 * 10 ^ (-s).toNat with hden
  have hden0 : den ≠ 0 := by
    rw [hden]
    split_ifs <;> positivity
  have hscaled : (num / den : ℚ) = x.units / (2 ^ 1074 : Nat) * 10 ^ s := by
    rw [hnum, hden]
    split_ifs with h
    · obtain ⟨k, rfl⟩ := Int.eq_ofNat_of_zero_le h
      rw [zpow_natCast, Int.toNat_natCast, Nat.cast_mul, Nat.cast_pow 10, Nat.cast_ofNat, div_mul_eq_mul_div]
    · obtain ⟨k, hk⟩ := Int.eq_ofNat_of_zero_le (show 0 ≤ -s by omega)
      obtain rfl : s = -(k : Int) := by omega
      rw [neg_neg, Int.toNat_natCast, zpow_neg, zpow_natCast, Nat.cast_mul, Nat.cast_pow 10, Nat.cast_ofNat, ← div_div,
        div_eq_mul_inv _ ((10 : ℚ) ^ k)]
  obtain ⟨hup, hdown, -⟩ := divRoundHalfEven_spec (n := num) hden0
  rw [hscaled] at hup hdown
  obtain ⟨hfrom, hto⟩ := near_of_scaled hpow hunit hup hdown
  have hmag : decimalMag (divRoundHalfEven num den) s = x.magBits := by
    obtain ⟨n, d, hd', hvalue, hmag⟩ := decimalMag_eq (divRoundHalfEven num den) s
    rw [decimal, zpow_neg, ← div_eq_mul_inv] at hvalue
    rw [hmag]
    exact roundMag_near_units hx h0 hd' (by rwa [hvalue]) (by rwa [hvalue])
  rw [if_pos hmag]
  rfl

/-! ### The shortest decimal -/

theorem ofDigitChars_append_zeros (cs : List Char) (k : Nat) :
    Nat.ofDigitChars 10 (cs ++ List.replicate k '0') 0 = Nat.ofDigitChars 10 cs 0 * 10 ^ k := by
  rw [Nat.ofDigitChars_append, Nat.ofDigitChars_replicate_zero, Nat.mul_comm]

/-- A number is not written with a leading zero. -/
theorem head?_natDigits {n : Nat} (h : n ≠ 0) : (natDigits n).head? ≠ some '0' := by
  induction n using Nat.base_induction 10 (by decide) with
  | single m hm =>
    rw [natDigits, Nat.toDigits_of_lt_base hm]
    revert m
    decide
  | digit m k hk hm ih =>
    rw [natDigits, ← Nat.toDigits_append_toDigits (by decide) hm hk, List.head?_append_of_ne_nil _ Nat.toDigits_ne_nil]
    exact ih hm.ne'

/-- Digits are those that are left without the zeros at their end, and these zeros. -/
theorem rdropWhile_zeros (cs : List Char) : ∃ k, cs = cs.rdropWhile (· == '0') ++ List.replicate k '0' := by
  have hzeros : cs.rtakeWhile (· == '0') = List.replicate (cs.rtakeWhile (· == '0')).length '0' :=
    List.eq_replicate_of_mem fun c hc => by simpa using List.mem_rtakeWhile_imp hc
  refine ⟨(cs.rtakeWhile (· == '0')).length, ?_⟩
  rw [← hzeros, List.rdropWhile_append_rtakeWhile]

/-- What the digits of `shortestDecimal` are, with the decimal point behind `point` of them. -/
structure IsDecimal (digits : List Char) (point : Int) (mag : Nat) : Prop where
  digit : ∀ c ∈ digits, c.isDigit = true
  ne_nil : digits ≠ []
  head : digits.head? ≠ some '0'
  mag_eq : decimalMag (Nat.ofDigitChars 10 digits 0) (digits.length - point) = mag

theorem findSome?_decimalAt (hx : x.isFinite = true) (h0 : x.units ≠ 0) :
    ∃ c s, (List.range 17).findSome? (fun k => decimalAt x.magBits x.units (2 ^ 1074) (k + 1)) = some (c, s) ∧
      decimalMag c s = x.magBits := by
  cases h : (List.range 17).findSome? fun k => decimalAt x.magBits x.units (2 ^ 1074) (k + 1) with
  | none =>
    have hnone := List.findSome?_eq_none_iff.mp h 16 (by decide)
    have hsome := decimalAt_seventeen hx h0
    rw [hnone] at hsome
    cases hsome
  | some p =>
    obtain ⟨k, -, hk⟩ := List.exists_of_findSome?_eq_some h
    exact ⟨p.1, p.2, rfl, decimalAt_sound hk⟩

theorem isDecimal_shortestDecimal (hx : x.isFinite = true) (h0 : x.units ≠ 0) :
    IsDecimal x.shortestDecimal.1 x.shortestDecimal.2 x.magBits := by
  obtain ⟨c, s, hfound, hmag⟩ := findSome?_decimalAt hx h0
  have hc : c ≠ 0 := by
    rintro rfl
    rw [decimalMag_zero] at hmag
    exact h0 (units_eq_zero_iff.mpr hmag.symm)
  obtain ⟨k, hzeros⟩ := rdropWhile_zeros (natDigits c)
  have hdecimal : x.shortestDecimal = ((natDigits c).rdropWhile (· == '0'), (natDigits c).length - s) := by
    unfold shortestDecimal
    dsimp only
    rw [hfound, Option.getD_some, List.rdropWhile]
  rw [hdecimal]
  have hhead := head?_natDigits hc
  have hvalue : Nat.ofDigitChars 10 (natDigits c) 0 = c := Nat.ofDigitChars_ten_toDigits
  have hdigit (d : Char) : d ∈ natDigits c → d.isDigit = true := isDigit_of_mem_natDigits
  generalize natDigits c = cs at *
  generalize cs.rdropWhile (· == '0') = digits at *
  subst hzeros
  rw [ofDigitChars_append_zeros] at hvalue
  have hne : digits ≠ [] := by
    rintro rfl
    rw [Nat.ofDigitChars_nil, Nat.zero_mul] at hvalue
    exact hc hvalue.symm
  refine ⟨fun d hd => hdigit d (List.mem_append_left _ hd), hne, ?_, ?_⟩
  · rwa [List.head?_append_of_ne_nil _ hne] at hhead
  · rw [← hmag, ← hvalue]
    refine decimalMag_congr ?_
    have hpow : (10 : ℚ) ^ k * 10 ^ (-s) = 10 ^ (k - s : Int) := by
      rw [← zpow_natCast, ← zpow_add₀ (by norm_num), sub_eq_add_neg]
    rw [decimal, decimal, List.length_append, List.length_replicate, Nat.cast_mul, Nat.cast_pow, Nat.cast_ofNat, mul_assoc,
      hpow, Nat.cast_add, show -((digits.length : Int) - (digits.length + k - s)) = k - s by ring]

/-! ### The text -/

/-- The characters of `repr` without the sign. -/
def decimalText (digits : List Char) (point : Int) : List Char :=
  let zeros := fun (n : Int) => List.replicate n.toNat '0'
  if -4 < point ∧ point ≤ 16 then
    if point ≤ 0 then '0' :: '.' :: zeros (-point) ++ digits
    else if digits.length ≤ point then digits ++ zeros (point - digits.length) ++ ['.', '0']
    else digits.take point.toNat ++ '.' :: digits.drop point.toNat
  else
    let expo := point - 1
    let rest := digits.drop 1
    digits.take 1 ++ (if rest.isEmpty then [] else '.' :: rest) ++
      'e' :: (if expo < 0 then '-' else '+') :: (padLeft '0' 2 (String.ofList (natDigits expo.natAbs))).toList

theorem toList_repr (hx : x.isFinite = true) : x.repr.toList = (if x.signBit then ['-'] else []) ++
    (if x.units = 0 then ['0', '.', '0'] else decimalText x.shortestDecimal.1 x.shortestDecimal.2) := by
  unfold repr
  dsimp only
  rw [if_neg (by simp [isNan_of_isFinite hx]), if_neg (by simp [isInf_of_isFinite hx])]
  generalize x.shortestDecimal = p
  by_cases h0 : x.units = 0
  · rw [if_pos h0, if_pos h0, String.toList_append]
    cases x.signBit <;> rfl
  · rw [if_neg h0, if_neg h0, String.toList_append, String.toList_ofList]
    cases x.signBit <;> rfl

theorem ofMag_self (x : Float64) : ofMag x.signBit x.magBits = x := by
  obtain ⟨bits⟩ := x
  have hlt := bits.isLt
  rw [ofMag, mk.injEq]
  refine BitVec.eq_of_toNat_eq ?_
  rw [BitVec.toNat_ofNat, signBit, magBits, BitVec.msb_eq_decide]
  by_cases h : 2 ^ 63 ≤ bits.toNat
  · simp only [h, decide_true, if_true]
    omega
  · simp only [h, decide_false, Bool.false_eq_true, if_false]
    omega

end Py.Float64
