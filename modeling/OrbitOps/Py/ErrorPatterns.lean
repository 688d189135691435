import Mathlib.Data.List.GetD
import OrbitOps.Py.Crc32

/-!
# Error patterns and the CRC-32

An error pattern is xored into a byte string. Shifts of the remainder are linear, so the checksum of
the changed string differs from the old one by the `syndrome` of the pattern alone: a sum of one
weight for each set bit. Within 32 consecutive bits the syndrome of a pattern is a shift of the
pattern itself, and over a few hundred bits the shifts of one bit are all different.
-/

namespace Py

/-- Exclusive or, byte by byte. -/
def xorBytes (a b : Bytes) : Bytes := List.zipWith (· ^^^ ·) a b

theorem length_xorBytes {a b : Bytes} (h : a.length = b.length) : (xorBytes a b).length = a.length := by
  rw [xorBytes, List.length_zipWith, h, Nat.min_self]

theorem take_xorBytes (n : Nat) (a b : Bytes) : (xorBytes a b).take n = xorBytes (a.take n) (b.take n) :=
  List.take_zipWith ..

theorem drop_xorBytes (n : Nat) (a b : Bytes) : (xorBytes a b).drop n = xorBytes (a.drop n) (b.drop n) :=
  List.drop_zipWith ..

/-- The bits of a byte, the least significant one first. -/
def byteBits (b : UInt8) : List Bool := (List.range 8).map b.toNat.testBit

def bitsOf (bs : Bytes) : List Bool := bs.flatMap byteBits

theorem length_byteBits (b : UInt8) : (byteBits b).length = 8 := by
  rw [byteBits, List.length_map, List.length_range]

theorem length_bitsOf (bs : Bytes) : (bitsOf bs).length = 8 * bs.length := by
  induction bs with
  | nil => rfl
  | cons b bs ih =>
    have hcons : bitsOf (b :: bs) = byteBits b ++ bitsOf bs := rfl
    rw [hcons, List.length_append, length_byteBits, ih, List.length_cons]
    omega

theorem getD_bitsOf (bs : Bytes) (i : Nat) :
    (bitsOf bs).getD i false = (bs.getD (i / 8) 0).toNat.testBit (i % 8) := by
  induction bs generalizing i with
  | nil => simp [bitsOf]
  | cons b bs ih =>
    have hcons : bitsOf (b :: bs) = byteBits b ++ bitsOf bs := rfl
    rw [hcons]
    by_cases hi : i < 8
    · have hlt : i < (byteBits b).length := by rwa [length_byteBits]
      rw [List.getD_append _ _ _ _ hlt, Nat.div_eq_of_lt hi, Nat.mod_eq_of_lt hi, List.getD_eq_getElem _ _ hlt]
      simp [byteBits]
    · obtain ⟨k, rfl⟩ := Nat.exists_eq_add_of_le (not_lt.mp hi)
      rw [List.getD_append_right _ _ _ _ (by rw [length_byteBits]; omega), length_byteBits, Nat.add_sub_cancel_left, ih,
        Nat.add_mod_left, show (8 + k) / 8 = k / 8 + 1 by omega, List.getD_cons_succ]

/-- Big-endian numbers are combined bit by bit. -/
theorem unpackBE_xorBytes {a b : Bytes} (h : a.length = b.length) :
    unpackBE (xorBytes a b) = unpackBE a ^^^ unpackBE b := by
  induction a generalizing b with
  | nil =>
    obtain rfl := List.length_eq_zero_iff.mp h.symm
    rfl
  | cons x a ih =>
    match b with
    | [] => cases h
    | y :: b =>
      have hlen : a.length = b.length := Nat.succ.inj h
      have hcons : xorBytes (x :: a) (y :: b) = (x ^^^ y) :: xorBytes a b := rfl
      have hpow : 256 ^ a.length = 2 ^ (8 * a.length) := by rw [show 256 = 2 ^ 8 by rfl, ← Nat.pow_mul]
      have ha := unpackBE_lt a
      have hb := unpackBE_lt b
      have hx := unpackBE_lt (xorBytes a b)
      rw [length_xorBytes hlen] at hx
      rw [← hlen] at hb
      rw [ih hlen] at hx
      rw [hcons, unpackBE, unpackBE, unpackBE, length_xorBytes hlen, ih hlen, ← hlen, UInt8.toNat_xor]
      rw [hpow] at ha hb hx ⊢
      refine Nat.eq_of_testBit_eq fun i => ?_
      rw [Nat.testBit_xor, Nat.mul_comm, Nat.testBit_two_pow_mul_add _ hx, Nat.mul_comm x.toNat,
        Nat.testBit_two_pow_mul_add _ ha, Nat.mul_comm y.toNat, Nat.testBit_two_pow_mul_add _ hb]
      split
      · rw [Nat.testBit_xor]
      · rw [Nat.testBit_xor]

/-! ### Sums of weights -/

/-- The sum of the weights of the set bits. -/
def weigh (weight : Nat → BitVec 32) : List Bool → BitVec 32
  | [] => 0#32
  | b :: bits => (if b then weight 0 else 0#32) ^^^ weigh (fun k => weight (k + 1)) bits

theorem weigh_append (weight : Nat → BitVec 32) (l l' : List Bool) :
    weigh weight (l ++ l') = weigh weight l ^^^ weigh (fun k => weight (l.length + k)) l' := by
  induction l generalizing weight with
  | nil => simp [weigh]
  | cons b l ih =>
    rw [List.cons_append, weigh, weigh, ih, BitVec.xor_assoc]
    simp only [List.length_cons, Nat.add_right_comm]

theorem weigh_congr {v w : Nat → BitVec 32} {bits : List Bool} (h : ∀ k < bits.length, v k = w k) :
    weigh v bits = weigh w bits := by
  induction bits generalizing v w with
  | nil => rfl
  | cons b bits ih =>
    rw [weigh, weigh, h 0 (Nat.succ_pos _), ih fun k hk => h (k + 1) (Nat.succ_lt_succ hk)]

theorem weigh_shiftLeft (weight : Nat → BitVec 32) (s : Nat) (bits : List Bool) :
    weigh (fun k => weight k <<< s) bits = weigh weight bits <<< s := by
  induction bits generalizing weight with
  | nil => simp [weigh]
  | cons b bits ih =>
    rw [weigh, weigh, ih, BitVec.shiftLeft_xor_distrib]
    cases b <;> simp

/-- The positions of the set bits. -/
def setPositions (bits : List Bool) : List Nat := (List.range bits.length).filter (bits.getD · false)

theorem setPositions_cons (b : Bool) (bits : List Bool) : setPositions (b :: bits) =
    (if b then [0] else []) ++ (setPositions bits).map Nat.succ := by
  rw [setPositions, List.length_cons, List.range_succ_eq_map, List.filter_cons, List.filter_map]
  have htail : ((fun i => (b :: bits).getD i false) ∘ Nat.succ) = fun i => bits.getD i false := by
    funext i
    exact List.getD_cons_succ
  rw [htail]
  cases b <;> rfl

/-- Only the set bits weigh. -/
theorem weigh_eq_foldr (weight : Nat → BitVec 32) (bits : List Bool) :
    weigh weight bits = (setPositions bits).foldr (fun k sum => weight k ^^^ sum) 0#32 := by
  induction bits generalizing weight with
  | nil => rfl
  | cons b bits ih =>
    rw [weigh, ih, setPositions_cons, List.foldr_append, List.foldr_map]
    cases b <;> simp

/-! ### The syndrome of a pattern -/

namespace Crc32

/-- The remainder after the bits, one shift for each. -/
def remainder (c : BitVec 32) (bits : List Bool) : BitVec 32 :=
  bits.foldl (fun c b => shift (c ^^^ if b then 1#32 else 0#32)) c

theorem remainder_eq (c : BitVec 32) (bits : List Bool) :
    remainder c bits = shift^[bits.length] c ^^^ remainder 0#32 bits := by
  induction bits generalizing c with
  | nil => simp [remainder]
  | cons b bits ih =>
    have hcons (c : BitVec 32) : remainder c (b :: bits) = remainder (shift (c ^^^ if b then 1#32 else 0#32)) bits := rfl
    rw [hcons, hcons, ih, ih (shift (0#32 ^^^ _)), List.length_cons, Function.iterate_succ_apply, shift_xor, shift_xor 0#32,
      iterate_shift_xor, iterate_shift_xor]
    have hzero : shift^[bits.length] (shift 0#32) = 0#32 := by
      rw [← Function.iterate_succ_apply]
      exact Function.iterate_fixed (by decide) _
    rw [hzero, BitVec.zero_xor, BitVec.xor_assoc]

theorem shift_zero : shift 0#32 = 0#32 := by decide

/-- A set bit weighs as often shifted as there are bits from it on. -/
theorem remainder_eq_weigh (bits : List Bool) :
    remainder 0#32 bits = weigh (fun k => shift^[bits.length - k] 1#32) bits := by
  induction bits with
  | nil => rfl
  | cons b bits ih =>
    have hcons : remainder 0#32 (b :: bits) = remainder (shift (0#32 ^^^ if b then 1#32 else 0#32)) bits := rfl
    rw [hcons, remainder_eq, ih, BitVec.zero_xor, weigh]
    simp only [List.length_cons, Nat.add_sub_add_right, Nat.sub_zero, Function.iterate_succ_apply]
    cases b
    · rw [if_neg Bool.false_ne_true, if_neg Bool.false_ne_true, shift_zero, Function.iterate_fixed shift_zero]
    · rfl

/-- The word of up to 32 bits. -/
theorem getLsbD_weigh (bits : List Bool) {i : Nat} (hi : i < 32) :
    (weigh (fun k => 1#32 <<< k) bits).getLsbD i = bits.getD i false := by
  induction bits generalizing i with
  | nil => simp [weigh]
  | cons b bits ih =>
    have hshift : weigh (fun k => 1#32 <<< (k + 1)) bits = weigh (fun k => 1#32 <<< k) bits <<< 1 := by
      rw [← weigh_shiftLeft]
      simp only [BitVec.shiftLeft_add]
    rw [weigh, hshift, BitVec.getLsbD_xor, BitVec.getLsbD_shiftLeft]
    cases i with
    | zero => cases b <;> simp
    | succ i =>
      rw [Nat.add_sub_cancel, ih (by omega), List.getD_cons_succ]
      cases b <;> simp [hi]

theorem shift_shiftLeft {c : BitVec 32} (h : c.getLsbD 31 = false) : shift (c <<< 1) = c := by
  have hlow : (c <<< 1).getLsbD 0 = false := by simp
  rw [shift, hlow, if_neg Bool.false_ne_true]
  refine BitVec.eq_of_getLsbD_eq fun i hi => ?_
  rw [BitVec.getLsbD_ushiftRight, BitVec.getLsbD_shiftLeft]
  by_cases hlast : i = 31
  · rw [hlast, h]; rfl
  · simp [show 1 + i < 32 by omega]

/-- Up to 32 bits are shifted out of the remainder in the order in which they enter it. -/
theorem remainder_eq_iterate {bits : List Bool} (h : bits.length ≤ 32) (c : BitVec 32) :
    remainder c bits = shift^[bits.length] (c ^^^ weigh (fun k => 1#32 <<< k) bits) := by
  induction bits generalizing c with
  | nil => simp [remainder, weigh]
  | cons b bits ih =>
    have hlen : bits.length < 32 := h
    have hcons : remainder c (b :: bits) = remainder (shift (c ^^^ if b then 1#32 else 0#32)) bits := rfl
    have hshift : weigh (fun k => 1#32 <<< (k + 1)) bits = weigh (fun k => 1#32 <<< k) bits <<< 1 := by
      rw [← weigh_shiftLeft]
      simp only [BitVec.shiftLeft_add]
    have htop : (weigh (fun k => 1#32 <<< k) bits).getLsbD 31 = false := by
      rw [getLsbD_weigh bits (by decide), List.getD_eq_default _ _ (by omega)]
    have hbit : (1#32 <<< 0) = 1#32 := by decide
    rw [hcons, ih hlen.le, List.length_cons, Function.iterate_succ_apply, weigh, hshift, hbit, ← BitVec.xor_assoc,
      shift_xor (c ^^^ _), shift_shiftLeft htop]

theorem remainder_of_clear {bits : List Bool} (h : ∀ b ∈ bits, b = false) (c : BitVec 32) :
    remainder c bits = shift^[bits.length] c := by
  induction bits generalizing c with
  | nil => rfl
  | cons b bits ih =>
    obtain rfl := h b (List.mem_cons_self ..)
    have hcons : remainder c (false :: bits) = remainder (shift (c ^^^ 0#32)) bits := rfl
    rw [hcons, BitVec.xor_zero, ih fun b hb => h b (List.mem_cons_of_mem _ hb), List.length_cons,
      Function.iterate_succ_apply]

theorem iterate_shift_ne_zero {c : BitVec 32} (h : c ≠ 0#32) (n : Nat) : shift^[n] c ≠ 0#32 := by
  intro hzero
  refine h (shift_injective.iterate n ?_)
  rw [hzero, Function.iterate_fixed shift_zero]

/-- A burst leaves a remainder: set bits, all of them within 32 consecutive positions. -/
theorem remainder_ne_zero {bits : List Bool} {start : Nat} (hset : ∃ i, bits.getD i false = true)
    (hburst : ∀ i, bits.getD i false = true → start ≤ i ∧ i < start + 32) : remainder 0#32 bits ≠ 0#32 := by
  have hclear {l : List Bool} (h : ∀ i, l.getD i false = true → False) : ∀ b ∈ l, b = false := by
    intro b hb
    obtain ⟨i, hi, rfl⟩ := List.mem_iff_getElem.mp hb
    rw [← Bool.not_eq_true]
    intro htrue
    exact h i (by rwa [List.getD_eq_getElem _ _ hi])
  have hsplit : bits = bits.take start ++ ((bits.drop start).take 32 ++ (bits.drop start).drop 32) := by
    rw [List.take_append_drop, List.take_append_drop]
  have hpre : ∀ b ∈ bits.take start, b = false := hclear fun i hi => by
    rw [List.getD_eq_getElem?_getD, List.getElem?_take] at hi
    split_ifs at hi with hlt
    · have := (hburst i (by rwa [List.getD_eq_getElem?_getD])).1
      omega
    · cases hi
  have hsuf : ∀ b ∈ (bits.drop start).drop 32, b = false := hclear fun i hi => by
    rw [List.drop_drop, List.getD_eq_getElem?_getD, List.getElem?_drop, ← List.getD_eq_getElem?_getD] at hi
    have := (hburst _ hi).2
    omega
  have hword : weigh (fun k => 1#32 <<< k) ((bits.drop start).take 32) ≠ 0#32 := by
    obtain ⟨i, hi⟩ := hset
    obtain ⟨hlo, hhi⟩ := hburst i hi
    intro hzero
    have hbit := getLsbD_weigh ((bits.drop start).take 32) (i := i - start) (by omega)
    rw [hzero, List.getD_eq_getElem?_getD, List.getElem?_take, if_pos (by omega), List.getElem?_drop,
      Nat.add_sub_cancel' hlo, ← List.getD_eq_getElem?_getD, hi] at hbit
    simp at hbit
  have happend (c : BitVec 32) (l l' : List Bool) : remainder c (l ++ l') = remainder (remainder c l) l' :=
    List.foldl_append
  rw [hsplit, happend, happend, remainder_of_clear hpre, Function.iterate_fixed shift_zero,
    remainder_eq_iterate (List.length_take_le ..), BitVec.zero_xor, remainder_of_clear hsuf]
  exact iterate_shift_ne_zero (iterate_shift_ne_zero hword _) _

/-! ### Bytes -/

theorem weigh_byteBits (b : UInt8) : weigh (fun k => 1#32 <<< k) (byteBits b) = b.toBitVec.setWidth 32 := by
  refine BitVec.eq_of_getLsbD_eq fun i hi => ?_
  rw [getLsbD_weigh _ hi, BitVec.getLsbD_setWidth, decide_eq_true hi, Bool.true_and]
  by_cases h8 : i < 8
  · rw [List.getD_eq_getElem _ _ (by rwa [length_byteBits])]
    simp [byteBits, BitVec.getLsbD]
  · rw [List.getD_eq_default _ _ (by rw [length_byteBits]; omega), BitVec.getLsbD_of_ge _ _ (by omega)]

theorem foldl_update (c : BitVec 32) (data : Bytes) : data.foldl update c = remainder c (bitsOf data) := by
  induction data generalizing c with
  | nil => rfl
  | cons b data ih =>
    have happend : remainder c (bitsOf (b :: data)) = remainder (remainder c (byteBits b)) (bitsOf data) :=
      List.foldl_append
    have hlen : (byteBits b).length ≤ 32 := by rw [length_byteBits]; decide
    rw [happend, remainder_eq_iterate hlen, length_byteBits, weigh_byteBits, List.foldl_cons, ih, update_eq]

/-- The change of the checksum that an error pattern makes. -/
def syndrome (pattern : Bytes) : BitVec 32 := remainder 0#32 (bitsOf pattern)

theorem foldl_update_xorBytes {data pattern : Bytes} (h : data.length = pattern.length) (c d : BitVec 32) :
    (xorBytes data pattern).foldl update (c ^^^ d) = data.foldl update c ^^^ pattern.foldl update d := by
  induction data generalizing pattern c d with
  | nil =>
    obtain rfl := List.length_eq_zero_iff.mp h.symm
    rfl
  | cons b data ih =>
    match pattern with
    | [] => cases h
    | e :: pattern =>
      have hstep : update (c ^^^ d) (b ^^^ e) = update c b ^^^ update d e := by
        rw [update_eq, update_eq, update_eq, ← iterate_shift_xor, UInt8.toBitVec_xor, BitVec.setWidth_xor]
        congr 1
        ac_rfl
      have hcons : xorBytes (b :: data) (e :: pattern) = (b ^^^ e) :: xorBytes data pattern := rfl
      rw [hcons, List.foldl_cons, hstep, ih (Nat.succ.inj h)]
      rfl

theorem crc32_xorBytes {data pattern : Bytes} (h : data.length = pattern.length) :
    crc32 (xorBytes data pattern) = crc32 data ^^^ syndrome pattern := by
  have hfold := foldl_update_xorBytes h 0xFFFFFFFF#32 0#32
  rw [BitVec.xor_zero, foldl_update 0#32] at hfold
  rw [crc32, crc32, hfold, syndrome]
  ac_rfl

/-- A big-endian number of up to four bytes weighs its bits by their places. -/
theorem ofNat_unpackBE {bs : Bytes} (h : bs.length ≤ 4) : BitVec.ofNat 32 (unpackBE bs) =
    weigh (fun k => 1#32 <<< (8 * (bs.length - 1 - k / 8) + k % 8)) (bitsOf bs) := by
  induction bs with
  | nil => rfl
  | cons b bs ih =>
    have hlen : bs.length < 4 := h
    have hpow : 256 ^ bs.length = 2 ^ (8 * bs.length) := by rw [show 256 = 2 ^ 8 by rfl, ← Nat.pow_mul]
    have hlt := unpackBE_lt bs
    have hcons : bitsOf (b :: bs) = byteBits b ++ bitsOf bs := rfl
    have hfirst : weigh (fun k => 1#32 <<< (8 * ((b :: bs).length - 1 - k / 8) + k % 8)) (byteBits b) =
        b.toBitVec.setWidth 32 <<< (8 * bs.length) := by
      rw [← weigh_byteBits, ← weigh_shiftLeft]
      refine weigh_congr fun k hk => ?_
      rw [length_byteBits] at hk
      rw [← BitVec.shiftLeft_add, List.length_cons, Nat.add_sub_cancel, Nat.div_eq_of_lt hk, Nat.mod_eq_of_lt hk,
        Nat.sub_zero, Nat.add_comm]
    have hrest : weigh (fun k => 1#32 <<< (8 * ((b :: bs).length - 1 - ((byteBits b).length + k) / 8) +
        ((byteBits b).length + k) % 8)) (bitsOf bs) = BitVec.ofNat 32 (unpackBE bs) := by
      rw [ih hlen.le]
      refine weigh_congr fun k _ => ?_
      rw [length_byteBits, Nat.add_mod_left, List.length_cons]
      congr 2
      omega
    rw [hcons, weigh_append, hfirst, hrest, unpackBE]
    rw [hpow] at hlt ⊢
    refine BitVec.eq_of_getLsbD_eq fun i hi => ?_
    rw [BitVec.getLsbD_xor, BitVec.getLsbD_shiftLeft, BitVec.getLsbD_ofNat, BitVec.getLsbD_ofNat,
      Nat.mul_comm, Nat.testBit_two_pow_mul_add _ hlt, decide_eq_true hi]
    split
    · simp [*]
    · rename_i hge
      have hzero : (unpackBE bs).testBit i = false :=
        Nat.testBit_lt_two_pow (hlt.trans_le (Nat.pow_le_pow_right (by decide) (by omega)))
      simp [hge, hzero, BitVec.getLsbD]

/-! ### The order of the polynomial -/

/-- The top bit of the remainder. -/
def topBit : BitVec 32 := 0x80000000#32

theorem iterate_shift_topBit_ne : ∀ d ∈ List.range 280, d ≠ 0 → shift^[d] topBit ≠ topBit := by
  decide +kernel

theorem one_shiftLeft_eq : ∀ m ∈ List.range 32, 1#32 <<< m = shift^[31 - m] topBit := by
  decide +kernel

/-- The first shifts of the top bit are all different. -/
theorem iterate_shift_topBit_inj {i j : Nat} (hi : i < 280) (hj : j < 280) (h : shift^[i] topBit = shift^[j] topBit) :
    i = j := by
  wlog hle : i ≤ j generalizing i j with hwlog
  · exact (hwlog hj hi h.symm (Nat.le_of_not_le hle)).symm
  by_contra hne
  obtain ⟨d, rfl⟩ := Nat.exists_eq_add_of_le hle
  rw [Function.iterate_add_apply] at h
  have hd := shift_injective.iterate i h
  exact iterate_shift_topBit_ne d (List.mem_range.mpr (by omega)) (by omega) hd.symm

end Crc32

end Py
