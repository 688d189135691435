import Mathlib.Algebra.Order.Floor.Div
import Mathlib.Data.Finset.Card
import Mathlib.Order.Interval.Finset.Nat

/-!
# Mixing and scaling words

The steps of a mixing function lose nothing: xoring a word with itself shifted to the right, and
multiplying by a word that has an inverse, are injective. A permutation of the numbers below `n` keeps
the number of those that pass a test, and scaling them into `m` values by multiply-high gives every value
to `n / m` of them, rounded down or up.
-/

namespace Py.Words

/-! ### Mixing -/

/-- A word that a shift to the right does not change is zero. -/
theorem eq_zero_of_shiftRight_eq {w k : Nat} (hk : 0 < k) {x : BitVec w} (h : x >>> k = x) : x = 0#w := by
  have hiter : ∀ n, x >>> (n * k) = x := by
    intro n
    induction n with
    | zero => simp
    | succ n ih => rw [Nat.succ_mul, BitVec.shiftRight_add, ih, h]
  rw [← hiter w]
  exact BitVec.ushiftRight_eq_zero (Nat.le_mul_of_pos_right w hk)

theorem xor_shiftRight_injective {w k : Nat} (hk : 0 < k) : Function.Injective fun x : BitVec w => x ^^^ (x >>> k) := by
  intro x y h
  have hxor : (x ^^^ y) >>> k = x ^^^ y := by
    rw [BitVec.ushiftRight_xor_distrib]
    have hzero : (x ^^^ (x >>> k)) ^^^ (y ^^^ (y >>> k)) = 0#w := by rw [show x ^^^ (x >>> k) = _ from h, BitVec.xor_self]
    have hswap : (x ^^^ y) ^^^ ((x >>> k) ^^^ (y >>> k)) = 0#w := by rw [← hzero]; ac_rfl
    exact (BitVec.xor_eq_zero_iff.mp hswap).symm
  exact BitVec.xor_eq_zero_iff.mp (eq_zero_of_shiftRight_eq hk hxor)

theorem mul_injective {w : Nat} {m inv : BitVec w} (h : m * inv = 1#w) : Function.Injective fun x : BitVec w => x * m := by
  intro x y hxy
  have hmul := congrArg (· * inv) hxy
  simpa only [BitVec.mul_assoc, h, BitVec.mul_one] using hmul

/-! ### Counting -/

/-- A permutation of the numbers below `n` keeps the number of those that pass a test. -/
theorem card_filter_of_injOn {n : Nat} {f : Nat → Nat} (hmaps : ∀ x < n, f x < n)
    (hinj : Set.InjOn f (Finset.range n)) (p : Nat → Prop) [DecidablePred p] :
    ((Finset.range n).filter fun x => p (f x)).card = ((Finset.range n).filter p).card := by
  have himage : (Finset.range n).image f = Finset.range n := by
    refine Finset.eq_of_subset_of_card_le ?_ (Finset.card_image_of_injOn hinj).ge
    intro y hy
    obtain ⟨x, hx, rfl⟩ := Finset.mem_image.mp hy
    exact Finset.mem_range.mpr (hmaps x (Finset.mem_range.mp hx))
  calc ((Finset.range n).filter fun x => p (f x)).card
      = (((Finset.range n).filter fun x => p (f x)).image f).card :=
        (Finset.card_image_of_injOn (hinj.mono (Finset.coe_subset.mpr (Finset.filter_subset _ _)))).symm
    _ = (((Finset.range n).image f).filter p).card := by rw [Finset.filter_image]
    _ = ((Finset.range n).filter p).card := by rw [himage]

theorem card_filter_lt {n t : Nat} (h : t ≤ n) : ((Finset.range n).filter fun x => x < t).card = t := by
  have heq : ((Finset.range n).filter fun x => x < t) = Finset.range t := by
    ext x
    simp only [Finset.mem_filter, Finset.mem_range]
    omega
  rw [heq, Finset.card_range]

/-- The numbers below `n` that are scaled to `v` form an interval. -/
theorem filter_scale {n m v : Nat} (hv : v < m) :
    ((Finset.range n).filter fun s => s * m / n = v) = Finset.Ico (v * n ⌈/⌉ m) ((v + 1) * n ⌈/⌉ m) := by
  have hm : 0 < m := Nat.zero_lt_of_lt hv
  ext s
  have hend : s < (v + 1) * n ⌈/⌉ m ↔ s * m < (v + 1) * n := by
    rw [← not_le, ceilDiv_le_iff_le_mul hm, not_le, Nat.mul_comm]
  rw [Finset.mem_filter, Finset.mem_range, Finset.mem_Ico, hend, ceilDiv_le_iff_le_mul hm, Nat.mul_comm m s]
  constructor
  · rintro ⟨hs, heq⟩
    have hn : 0 < n := Nat.zero_lt_of_lt hs
    exact ⟨(Nat.le_div_iff_mul_le hn).mp heq.ge, (Nat.div_lt_iff_lt_mul hn).mp (by omega)⟩
  · rintro ⟨hle, hlt⟩
    have hsn : s < n := by
      by_contra hge
      have : (v + 1) * n ≤ s * m := by
        calc (v + 1) * n ≤ m * s := Nat.mul_le_mul hv (not_lt.mp hge)
          _ = s * m := Nat.mul_comm _ _
      omega
    have hn : 0 < n := Nat.zero_lt_of_lt hsn
    have hlow := (Nat.le_div_iff_mul_le hn).mpr hle
    have hhigh := (Nat.div_lt_iff_lt_mul hn).mpr hlt
    exact ⟨hsn, by omega⟩

/-- Each of the `m` values is given to `n / m` of the numbers below `n`, rounded down or up. -/
theorem card_filter_scale {n m v : Nat} (hv : v < m) :
    ((Finset.range n).filter fun s => s * m / n = v).card = n / m ∨
      ((Finset.range n).filter fun s => s * m / n = v).card = n ⌈/⌉ m := by
  have hm : 0 < m := Nat.zero_lt_of_lt hv
  rw [filter_scale hv, Nat.card_Ico]
  have hlow := (ceilDiv_le_iff_le_mul hm).mp (le_refl (v * n ⌈/⌉ m))
  have hhigh := (ceilDiv_le_iff_le_mul hm).mp (le_refl ((v + 1) * n ⌈/⌉ m))
  have hceil := (ceilDiv_le_iff_le_mul hm).mp (le_refl (n ⌈/⌉ m))
  have hfloor : m * (n / m) ≤ n := Nat.mul_div_le n m
  rw [Nat.succ_mul] at hhigh
  -- the interval is at least as long as the quotient rounded down and at most as long as rounded up
  have hge : v * n ⌈/⌉ m + n / m ≤ (v + 1) * n ⌈/⌉ m := by
    rw [← Nat.le_sub_iff_add_le (by
      rw [← Nat.mul_le_mul_left_iff hm]
      rw [Nat.succ_mul]
      omega)]
    rw [ceilDiv_le_iff_le_mul hm, Nat.mul_sub, Nat.succ_mul]
    omega
  have hle : (v + 1) * n ⌈/⌉ m ≤ v * n ⌈/⌉ m + n ⌈/⌉ m := by
    rw [ceilDiv_le_iff_le_mul hm, Nat.mul_add, Nat.succ_mul]
    omega
  have hone : n ⌈/⌉ m ≤ n / m + 1 := by
    rw [ceilDiv_le_iff_le_mul hm]
    exact (Nat.lt_mul_div_succ n hm).le
  omega

end Py.Words
