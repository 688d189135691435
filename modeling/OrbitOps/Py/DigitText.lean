import OrbitOps.Py.FloatOrder
import OrbitOps.Py.FloatText

/-!
# Numbers are determined by their text

`str` of integers and `float.hex` of finite doubles are injective. A double is put together again
from its sign, the thirteen hexadecimal digits of its fraction and the decimal power.
-/

namespace Py

/-- Where a run of characters of a class ends, the two sides of an equation part. -/
theorem append_inj_of_stop {P : Char → Prop} {a b s t : List Char} (ha : ∀ c ∈ a, P c) (hb : ∀ c ∈ b, P c)
    (hs : ∀ c ∈ s.head?, ¬P c) (ht : ∀ c ∈ t.head?, ¬P c) (h : a ++ s = b ++ t) : a = b ∧ s = t := by
  induction a generalizing b with
  | nil =>
    cases b with
    | nil => exact ⟨rfl, h⟩
    | cons c b =>
      rw [List.nil_append] at h
      exact absurd (hb c (List.mem_cons_self ..)) (hs c (by rw [h]; rfl))
  | cons c a ih =>
    cases b with
    | nil =>
      rw [List.nil_append] at h
      exact absurd (ha c (List.mem_cons_self ..)) (ht c (by rw [← h]; rfl))
    | cons d b =>
      rw [List.cons_append, List.cons_append, List.cons.injEq] at h
      obtain ⟨rfl, h⟩ := h
      obtain ⟨rfl, hst⟩ := ih (fun x hx => ha x (List.mem_cons_of_mem _ hx))
        (fun x hx => hb x (List.mem_cons_of_mem _ hx)) h
      exact ⟨rfl, hst⟩

/-! ### Integers -/

theorem natDigits_injective {n m : Nat} (h : natDigits n = natDigits m) : n = m := by
  have hn : Nat.ofDigitChars 10 (natDigits n) 0 = n := Nat.ofDigitChars_ten_toDigits
  have hm : Nat.ofDigitChars 10 (natDigits m) 0 = m := Nat.ofDigitChars_ten_toDigits
  rw [← hn, ← hm, h]

/-- A character of an integer. -/
def IsIntChar (c : Char) : Prop := c.isDigit = true ∨ c = '-'

theorem isDigit_of_mem_natDigits {n : Nat} {c : Char} (h : c ∈ natDigits n) : c.isDigit = true :=
  Nat.isDigit_of_mem_toDigits (by decide) (by decide) h

theorem isIntChar_of_mem_intText {n : Int} {c : Char} (h : c ∈ (intText n).toList) : IsIntChar c := by
  rw [intText, String.toList_ofList] at h
  split_ifs at h
  · rcases List.mem_cons.mp h with rfl | h
    · exact .inr rfl
    · exact .inl (isDigit_of_mem_natDigits h)
  · exact .inl (isDigit_of_mem_natDigits h)

theorem intText_injective {n m : Int} (h : intText n = intText m) : n = m := by
  have hsign (a b : Nat) : '-' :: natDigits a ≠ natDigits b := by
    intro he
    have hmem : '-' ∈ natDigits b := he ▸ List.mem_cons_self ..
    exact absurd (isDigit_of_mem_natDigits hmem) (by decide)
  rw [intText, intText, String.ofList_inj] at h
  split_ifs at h with hn hm hm
  · have := natDigits_injective (List.cons.inj h).2
    omega
  · exact absurd h (hsign _ _)
  · exact absurd h.symm (hsign _ _)
  · have := natDigits_injective h
    omega

theorem intText_ne_plus {n : Int} {s : List Char} : (intText n).toList ≠ '+' :: s := by
  intro h
  have hplus : IsIntChar '+' := isIntChar_of_mem_intText (h ▸ List.mem_cons_self ..)
  exact absurd hplus (by rw [IsIntChar]; decide)

theorem intText_append_inj {n m : Int} {s t : List Char} (hs : ∀ c ∈ s.head?, ¬IsIntChar c)
    (ht : ∀ c ∈ t.head?, ¬IsIntChar c) (h : (intText n).toList ++ s = (intText m).toList ++ t) : n = m ∧ s = t := by
  obtain ⟨htext, hst⟩ := append_inj_of_stop (fun _ => isIntChar_of_mem_intText) (fun _ => isIntChar_of_mem_intText) hs ht h
  exact ⟨intText_injective (String.toList_inj.mp htext), hst⟩

/-! ### Hexadecimal doubles -/

/-- The number that hexadecimal digits write, after the digits of `n`. -/
def hexNat (n : Nat) (cs : List Char) : Nat := cs.foldl (fun n c => 16 * n + (hexValue? c).getD 0) n

theorem hexValue?_digitChar : ∀ n < 16, hexValue? n.digitChar = some n := by decide

theorem hexNat_toDigits (n : Nat) : hexNat 0 (Nat.toDigits 16 n) = n := by
  induction n using Nat.base_induction 16 (by decide) with
  | single m hm =>
    rw [Nat.toDigits_of_lt_base hm]
    simp [hexNat, hexValue?_digitChar m hm]
  | digit m k hk hm ih =>
    rw [← Nat.toDigits_append_toDigits (by decide) hm hk, Nat.toDigits_of_lt_base hk, hexNat, List.foldl_append]
    rw [hexNat] at ih
    rw [ih]
    simp [hexValue?_digitChar k hk]

theorem hexNat_replicate_zero (k : Nat) (cs : List Char) : hexNat 0 (List.replicate k '0' ++ cs) = hexNat 0 cs := by
  induction k with
  | zero => rfl
  | succ k ih => rw [List.replicate_succ, List.cons_append, hexNat, List.foldl_cons]; exact ih

/-- The thirteen digits of a fraction. -/
def fracText (n : Nat) : List Char := (padLeft '0' 13 (String.ofList (Nat.toDigits 16 n))).toList

theorem toList_padLeft (c : Char) (k : Nat) (cs : List Char) :
    (padLeft c k (String.ofList cs)).toList = List.replicate (k - cs.length) c ++ cs := by
  simp [padLeft]

theorem length_fracText {n : Nat} (h : n < 2 ^ 52) : (fracText n).length = 13 := by
  have hlen : (Nat.toDigits 16 n).length ≤ 13 :=
    (Nat.length_toDigits_le_iff (by decide) (by decide)).mpr (lt_of_lt_of_le h (by decide))
  rw [fracText, toList_padLeft, List.length_append, List.length_replicate]
  omega

theorem fracText_injective {n m : Nat} (h : fracText n = fracText m) : n = m := by
  rw [fracText, fracText, toList_padLeft, toList_padLeft] at h
  rw [← hexNat_toDigits n, ← hexNat_toDigits m, ← hexNat_replicate_zero (13 - (Nat.toDigits 16 n).length), h,
    hexNat_replicate_zero]

namespace Float64
variable {x y : Float64}

/-- The decimal power that `hex` writes. -/
def hexPower (x : Float64) : Int := if x.magBits / 2 ^ 52 = 0 then -1022 else (x.magBits / 2 ^ 52 : Nat) - 1023

/-- What `hex` writes after the sign and the first `0`. -/
def hexBody (x : Float64) : List Char :=
  if x.units = 0 then "x0.0p+0".toList
  else 'x' :: (if x.magBits / 2 ^ 52 = 0 then '0' else '1') :: '.' ::
    (fracText (x.magBits % 2 ^ 52) ++ 'p' :: ((if x.hexPower < 0 then [] else ['+']) ++ (intText x.hexPower).toList))

theorem toList_hex (hx : x.isFinite = true) :
    x.hex.toList = (if x.signBit then ['-'] else []) ++ '0' :: x.hexBody := by
  have hsign : (if x.signBit then "-" else "").toList = if x.signBit then ['-'] else [] := by
    cases x.signBit <;> rfl
  have hlead : (if x.magBits / 2 ^ 52 = 0 then "0x0." else "0x1.").toList =
      '0' :: 'x' :: (if x.magBits / 2 ^ 52 = 0 then '0' else '1') :: '.' :: [] := by
    split_ifs <;> rfl
  have hplus : (if x.hexPower < 0 then "" else "+").toList = if x.hexPower < 0 then [] else ['+'] := by
    split_ifs <;> rfl
  rw [hex, isNan_of_isFinite hx, isInf_of_isFinite hx, if_neg Bool.false_ne_true, if_neg Bool.false_ne_true, hexBody]
  by_cases hu : x.units = 0
  · rw [if_pos hu, if_pos hu, String.toList_append, hsign]
    rfl
  · rw [if_neg hu, if_neg hu]
    show (_ ++ _ ++ padLeft '0' 13 _ ++ "p" ++ (if x.hexPower < 0 then "" else "+") ++ intText x.hexPower).toList = _
    simp only [String.toList_append, hsign, hlead, hplus, List.append_assoc, List.cons_append, List.nil_append]
    rfl

theorem magBits_eq_of_hexBody (h : x.hexBody = y.hexBody) : x.magBits = y.magBits := by
  have hfrac (z : Float64) : (fracText (z.magBits % 2 ^ 52)).length = 13 := length_fracText (Nat.mod_lt _ (by decide))
  -- the text of zero is shorter than the fraction of any other double
  have hzero {z z' : Float64} (hz : z.units = 0) (h : z.hexBody = z'.hexBody) : z'.units = 0 := by
    by_contra hz'
    have hlen := congrArg List.length h
    rw [hexBody, hexBody, if_pos hz, if_neg hz'] at hlen
    simp only [List.length_cons, List.length_append, hfrac] at hlen
    revert hlen
    simp
    omega
  by_cases hx : x.units = 0
  · rw [units_eq_zero_iff.mp hx, units_eq_zero_iff.mp (hzero hx h)]
  · have hy : y.units ≠ 0 := fun hy => hx (hzero hy h.symm)
    rw [hexBody, hexBody, if_neg hx, if_neg hy] at h
    obtain ⟨hlead, htail⟩ := List.cons.inj (List.cons.inj h).2
    obtain ⟨hfraction, hpower⟩ := List.append_inj (List.cons.inj htail).2 (by rw [hfrac, hfrac])
    have hmod := fracText_injective hfraction
    have hexp : x.hexPower = y.hexPower := by
      have hp := (List.cons.inj hpower).2
      split_ifs at hp
      · exact intText_injective (String.toList_inj.mp hp)
      · exact absurd hp intText_ne_plus
      · exact absurd hp.symm intText_ne_plus
      · exact intText_injective (String.toList_inj.mp (List.cons.inj hp).2)
    have hdiv : x.magBits / 2 ^ 52 = y.magBits / 2 ^ 52 := by
      rw [hexPower, hexPower] at hexp
      split_ifs at hlead hexp <;> first | omega | exact absurd hlead (by decide)
    have := Nat.mod_add_div x.magBits (2 ^ 52)
    have := Nat.mod_add_div y.magBits (2 ^ 52)
    rw [hdiv] at *
    omega

/-- `float.hex` is injective on the finite doubles. -/
theorem hex_injective (hx : x.isFinite = true) (hy : y.isFinite = true) (h : x.hex = y.hex) : x = y := by
  have htext : x.hex.toList = y.hex.toList := congrArg String.toList h
  rw [toList_hex hx, toList_hex hy] at htext
  have hparts : x.signBit = y.signBit ∧ x.hexBody = y.hexBody := by
    cases hsx : x.signBit <;> cases hsy : y.signBit <;> simp_all
  exact ext_sign_mag hparts.1 (magBits_eq_of_hexBody hparts.2)

end Float64

end Py
