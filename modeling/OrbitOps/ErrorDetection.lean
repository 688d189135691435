import OrbitOps.Link.Impairments
import OrbitOps.Py.ErrorPatterns

/-!
# Error detection of the decoder

A changed datagram keeps its checksum only if the `residue` of the error pattern is zero. Every bit
of a datagram, also of the checksum field, adds its own shift of one bit to the residue, so one or
two changed bits leave one; a short burst in the body is a shift of the burst itself.
-/

namespace OrbitOps
open Py Crc32 Link.ImpairmentEngine

/-- The bits that a pattern changes, in the numbering of `flip_bit`. -/
def changedBits (pattern : Bytes) : List Nat := (List.range (8 * pattern.length)).filter (bitAt pattern)

/-- One or two bits are changed. -/
def FewBits (pattern : Bytes) : Prop :=
  (changedBits pattern).length = 1 ∨ (changedBits pattern).length = 2

/-- Bits of the body are changed, all within 32 consecutive ones. -/
def BodyBurst (pattern : Bytes) : Prop :=
  changedBits pattern ≠ [] ∧
    ∃ start, ∀ i ∈ changedBits pattern, start ≤ i ∧ i < start + 32 ∧ i < 8 * HEADER_SIZE

theorem setPositions_bitsOf (pattern : Bytes) : setPositions (bitsOf pattern) = changedBits pattern := by
  rw [setPositions, changedBits, length_bitsOf]
  refine List.filter_congr fun i _ => ?_
  rw [getD_bitsOf, bitAt]

/-- What a pattern adds to the difference of the two checksums of a datagram. -/
def residue (pattern : Bytes) : BitVec 32 :=
  syndrome (pattern.take HEADER_SIZE) ^^^ BitVec.ofNat 32 (unpackBE (pattern.drop HEADER_SIZE))

theorem field_crc {data : Bytes} (h : data.length = PACKET_SIZE) : field data 31 4 = data.drop HEADER_SIZE :=
  List.take_of_length_le (by rw [List.length_drop, h]; decide)

theorem decodePacket_xorBytes {data pattern : Bytes} {p : DecodedPacket} (h : decodePacket data = .ok p)
    (hlen : pattern.length = data.length) (hne : residue pattern ≠ 0#32) :
    ∃ e, decodePacket (xorBytes data pattern) = .error e ∧ e.cls = .protocolError := by
  obtain ⟨hsize, hcrc⟩ := decodePacket_ok_crc h
  refine decodePacket_of_crc_ne fun heq => hne ?_
  have hsize' : (xorBytes data pattern).length = PACKET_SIZE := (length_xorBytes hlen.symm).trans hsize
  have htake : (data.take HEADER_SIZE).length = (pattern.take HEADER_SIZE).length := by
    rw [List.length_take, List.length_take, hlen]
  have hdrop : (data.drop HEADER_SIZE).length = (pattern.drop HEADER_SIZE).length := by
    rw [List.length_drop, List.length_drop, hlen]
  rw [field_crc hsize', drop_xorBytes, take_xorBytes, unpackBE_xorBytes hdrop, crc32_xorBytes htake] at heq
  rw [field_crc hsize] at hcrc
  have hbits := congrArg (BitVec.ofNat 32) heq
  rw [hcrc, BitVec.ofNat_xor, BitVec.ofNat_toNat, BitVec.ofNat_toNat, BitVec.setWidth_eq, BitVec.setWidth_eq] at hbits
  have hcancel := congrArg (crc32 (data.take HEADER_SIZE) ^^^ ·) hbits
  simp only [← BitVec.xor_assoc, BitVec.xor_self, BitVec.zero_xor] at hcancel
  rw [residue, hcancel, BitVec.xor_self]

/-! ### Weights -/

/-- How often the top bit is shifted for a bit of a datagram. -/
def bitShifts (k : Nat) : Nat :=
  if k < 248 then 279 - k else 31 - (8 * (3 - (k - 248) / 8) + k % 8)

theorem bitShifts_lt {k : Nat} (h : k < 280) : bitShifts k < 280 := by
  unfold bitShifts
  split <;> omega

theorem bitShifts_inj {i j : Nat} (hi : i < 280) (hj : j < 280) (h : bitShifts i = bitShifts j) : i = j := by
  unfold bitShifts at h
  split_ifs at h <;> omega

theorem residue_eq_weigh {pattern : Bytes} (hlen : pattern.length = PACKET_SIZE) :
    residue pattern = weigh (fun k => shift^[bitShifts k] topBit) (bitsOf pattern) := by
  have htake : (pattern.take HEADER_SIZE).length = 31 := by rw [List.length_take, hlen]; rfl
  have hdrop : (pattern.drop HEADER_SIZE).length = 4 := by rw [List.length_drop, hlen]; rfl
  have hsplit : bitsOf pattern = bitsOf (pattern.take HEADER_SIZE) ++ bitsOf (pattern.drop HEADER_SIZE) := by
    rw [bitsOf, bitsOf, bitsOf, ← List.flatMap_append, List.take_append_drop]
  rw [hsplit, weigh_append, length_bitsOf, htake, residue, syndrome, remainder_eq_weigh, ofNat_unpackBE (by omega),
    length_bitsOf, htake, hdrop]
  congr 1
  · refine weigh_congr fun k hk => ?_
    rw [length_bitsOf, htake] at hk
    have hone : (1#32 : BitVec 32) = shift^[31] topBit := one_shiftLeft_eq 0 (List.mem_range.mpr (by omega))
    have hshifts : bitShifts k = 8 * 31 - k + 31 := by
      rw [bitShifts, if_pos hk]
      omega
    rw [hshifts, Function.iterate_add_apply, ← hone]
  · refine weigh_congr fun k hk => ?_
    rw [length_bitsOf, hdrop] at hk
    have hshifts : bitShifts (8 * 31 + k) = 31 - (8 * (4 - 1 - k / 8) + k % 8) := by
      rw [bitShifts, if_neg (by omega)]
      omega
    rw [hshifts]
    exact one_shiftLeft_eq _ (List.mem_range.mpr (by omega))

/-! ### Detection -/

theorem lt_of_mem_changedBits {pattern : Bytes} (hlen : pattern.length = PACKET_SIZE) {i : Nat}
    (hi : i ∈ changedBits pattern) : i < 280 := by
  have := List.mem_range.mp (List.mem_of_mem_filter hi)
  rw [hlen] at this
  exact this

theorem residue_of_fewBits {pattern : Bytes} (hlen : pattern.length = PACKET_SIZE) (h : FewBits pattern) :
    residue pattern ≠ 0#32 := by
  have htop : topBit ≠ 0#32 := by decide
  have hnodup : (changedBits pattern).Nodup := List.nodup_range.filter _
  have hlt {i : Nat} (hi : i ∈ changedBits pattern) : i < 280 := lt_of_mem_changedBits hlen hi
  rw [residue_eq_weigh hlen, weigh_eq_foldr, setPositions_bitsOf]
  rcases h with h | h
  · obtain ⟨i, hi⟩ := List.length_eq_one_iff.mp h
    rw [hi, List.foldr_cons, List.foldr_nil, BitVec.xor_zero]
    exact iterate_shift_ne_zero htop _
  · obtain ⟨i, j, hij⟩ := List.length_eq_two.mp h
    rw [hij] at hnodup hlt
    rw [hij, List.foldr_cons, List.foldr_cons, List.foldr_nil, BitVec.xor_zero]
    intro hzero
    have hi : i < 280 := hlt (List.mem_cons_self ..)
    have hj : j < 280 := hlt (List.mem_cons_of_mem _ (List.mem_cons_self ..))
    have hshifts := iterate_shift_topBit_inj (bitShifts_lt hi) (bitShifts_lt hj) (BitVec.xor_eq_zero_iff.mp hzero)
    have hne : i ≠ j := by simpa using hnodup
    exact hne (bitShifts_inj hi hj hshifts)

theorem residue_of_bodyBurst {pattern : Bytes} (hlen : pattern.length = PACKET_SIZE) (h : BodyBurst pattern) :
    residue pattern ≠ 0#32 := by
  obtain ⟨hne, start, hburst⟩ := h
  have htake : (pattern.take HEADER_SIZE).length = 31 := by rw [List.length_take, hlen]; rfl
  have hdrop : (pattern.drop HEADER_SIZE).length = 4 := by rw [List.length_drop, hlen]; rfl
  have hmem {i : Nat} : i ∈ changedBits pattern ↔ i < 280 ∧ bitAt pattern i = true := by
    rw [changedBits, List.mem_filter, List.mem_range, hlen]
    rfl
  have hbody {i : Nat} (hi : (bitsOf (pattern.take HEADER_SIZE)).getD i false = true) : i ∈ changedBits pattern := by
    have hlt : i < 248 := by
      by_contra hge
      rw [List.getD_eq_default _ _ (by rw [length_bitsOf, htake]; omega)] at hi
      cases hi
    rw [getD_bitsOf, List.getD_eq_getElem?_getD, List.getElem?_take, HEADER_SIZE, if_pos (by omega)] at hi
    exact hmem.mpr ⟨by omega, by rwa [bitAt, List.getD_eq_getElem?_getD]⟩
  -- the checksum field is not touched
  have hfield : setPositions (bitsOf (pattern.drop HEADER_SIZE)) = [] := by
    rw [setPositions_bitsOf, List.eq_nil_iff_forall_not_mem]
    intro i hi
    obtain ⟨hrange, hbit⟩ := List.mem_filter.mp hi
    rw [List.mem_range, hdrop] at hrange
    have hlater : bitAt pattern (248 + i) = true := by
      rw [bitAt, List.getD_eq_getElem?_getD, List.getElem?_drop, ← List.getD_eq_getElem?_getD, HEADER_SIZE] at hbit
      rwa [bitAt, show (248 + i) / 8 = 31 + i / 8 by omega, show (248 + i) % 8 = i % 8 by omega]
    have := (hburst (248 + i) (hmem.mpr ⟨by omega, hlater⟩)).2.2
    rw [HEADER_SIZE] at this
    omega
  have hset : ∃ i, (bitsOf (pattern.take HEADER_SIZE)).getD i false = true := by
    obtain ⟨i, hi⟩ := List.exists_mem_of_ne_nil _ hne
    have hlt := (hburst i hi).2.2
    rw [HEADER_SIZE] at hlt
    refine ⟨i, ?_⟩
    rw [getD_bitsOf, List.getD_eq_getElem?_getD, List.getElem?_take, HEADER_SIZE, if_pos (by omega),
      ← List.getD_eq_getElem?_getD]
    exact (hmem.mp hi).2
  rw [residue, ofNat_unpackBE hdrop.le, weigh_eq_foldr, hfield, List.foldr_nil, BitVec.xor_zero, syndrome]
  exact remainder_ne_zero hset fun i hi => ⟨(hburst i (hbody hi)).1, (hburst i (hbody hi)).2.1⟩

/-- A datagram that was accepted is rejected after an error of one or two bits, and after a burst of at
most 32 bits in its body. -/
theorem decodePacket_detects {data pattern : Bytes} {p : DecodedPacket} (h : decodePacket data = .ok p)
    (hlen : pattern.length = PACKET_SIZE) (herror : FewBits pattern ∨ BodyBurst pattern) :
    ∃ e, decodePacket (xorBytes data pattern) = .error e ∧ e.cls = .protocolError := by
  have hsize : pattern.length = data.length := hlen.trans (decodePacket_ok_crc h).1.symm
  rcases herror with hfew | hburst
  · exact decodePacket_xorBytes h hsize (residue_of_fewBits hlen hfew)
  · exact decodePacket_xorBytes h hsize (residue_of_bodyBurst hlen hburst)

/-- A pattern of two bits, one of them in the checksum field. -/
def twoBits : Bytes := List.replicate 4 0 ++ [0x10] ++ List.replicate 28 0 ++ [0x02, 0]

theorem decodePacket_detects_twoBits :
    ∃ e, decodePacket (xorBytes (encoding nominalPacket) twoBits) = .error e ∧ e.cls = .protocolError := by
  obtain ⟨p, hp⟩ : ∃ p, decodePacket (encoding nominalPacket) = .ok p := by
    cases hd : decodePacket (encoding nominalPacket) with
    | ok p => exact ⟨p, rfl⟩
    | error e =>
      have hok : (decodePacket (encoding nominalPacket)).toBool = true := by decide +kernel
      rw [hd] at hok
      cases hok
  exact decodePacket_detects hp (by decide) (.inl (.inr (by decide +kernel)))

end OrbitOps
