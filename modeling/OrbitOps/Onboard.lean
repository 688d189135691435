import OrbitOps.Codec

/-!
# The onboard encoder

The C++ program appends the fields of a telemetry value byte by byte and closes the packet with a
CRC that it computes bit by bit. Each append is a big-endian packing and each bit step one shift of
the remainder, so the bytes are those of the ground station's encoder.
-/

namespace OrbitOps.Onboard
open Py

def kMagic : Bytes := [0x4F, 0x52, 0x42, 0x54]
def kVersion : UInt8 := 1
def kPacketSize : Nat := 35

inductive SpacecraftMode where
  | Boot
  | Nominal
  | Safe
deriving DecidableEq, Repr

/-- The underlying value of the enumeration. -/
def SpacecraftMode.value : SpacecraftMode → UInt8
  | Boot => 0
  | Nominal => 1
  | Safe => 2

structure Telemetry where
  sequence : UInt32
  timestampMs : UInt64
  mode : SpacecraftMode
  batteryMv : UInt16
  busCurrentMa : UInt16
  temperatureCentiC : Int16
  rollCentiDeg : Int16
  pitchCentiDeg : Int16
  yawCentiDeg : Int16

def appendU16 (out : Bytes) (value : UInt16) : Bytes :=
  out ++ [((value >>> 8) &&& 0xFF).toUInt8] ++ [(value &&& 0xFF).toUInt8]

def appendI16 (out : Bytes) (value : Int16) : Bytes := appendU16 out value.toUInt16

/-- The loop runs over the shifts 24, 16, 8, 0. -/
def appendU32 (out : Bytes) (value : UInt32) : Bytes :=
  [24, 16, 8, 0].foldl (fun out (shift : UInt32) => out ++ [((value >>> shift) &&& 0xFF).toUInt8]) out

def appendU64 (out : Bytes) (value : UInt64) : Bytes :=
  [56, 48, 40, 32, 24, 16, 8, 0].foldl (fun out (shift : UInt64) => out ++ [((value >>> shift) &&& 0xFF).toUInt8]) out

/-- The body of the inner loop of `crc32`. -/
def crcBit (crc : UInt32) : UInt32 :=
  let mask := -(crc &&& 1)
  (crc >>> 1) ^^^ (0xEDB88320 &&& mask)

/-- The body of the outer loop of `crc32`. -/
def crcByte (crc : UInt32) (byte : UInt8) : UInt32 := crcBit^[8] (crc ^^^ byte.toUInt32)

def crc32 (data : Bytes) : UInt32 := ~~~(data.foldl crcByte 0xFFFFFFFF)

/-- `encode`; an error is the message of the `std::runtime_error`. -/
def encode (telemetry : Telemetry) : Except String Bytes :=
  let out := kMagic ++ [kVersion] ++ [0]
  let out := appendU32 out telemetry.sequence
  let out := appendU64 out telemetry.timestampMs
  let out := out ++ [telemetry.mode.value]
  let out := appendU16 out telemetry.batteryMv
  let out := appendU16 out telemetry.busCurrentMa
  let out := appendI16 out telemetry.temperatureCentiC
  let out := appendI16 out telemetry.rollCentiDeg
  let out := appendI16 out telemetry.pitchCentiDeg
  let out := appendI16 out telemetry.yawCentiDeg
  let out := appendU32 out (crc32 out)
  if out.length ≠ kPacketSize then .error "encoded packet has unexpected size" else .ok out

/-- The ground station's packet with the same field values. -/
def Telemetry.packet (t : Telemetry) : TelemetryPacket Int where
  sequence := t.sequence.toNat
  timestampMs := t.timestampMs.toNat
  mode := t.mode.value.toNat
  batteryMv := t.batteryMv.toNat
  busCurrentMa := t.busCurrentMa.toNat
  temperatureCentiC := t.temperatureCentiC.toInt
  rollCentiDeg := t.rollCentiDeg.toInt
  pitchCentiDeg := t.pitchCentiDeg.toInt
  yawCentiDeg := t.yawCentiDeg.toInt

/-! ### Appending is packing -/

/-- A shifted and masked word is one byte of its value. -/
theorem byte_shiftRight (n shift : Nat) : n >>> shift % 256 &&& 255 = n / 2 ^ shift % 256 := by
  have hmask : n >>> shift % 256 &&& 255 = n >>> shift % 256 % 2 ^ 8 := Nat.and_two_pow_sub_one_eq_mod _ 8
  rw [hmask, Nat.shiftRight_eq_div_pow]
  omega

theorem appendU16_eq (out : Bytes) (value : UInt16) : appendU16 out value = out ++ packBE 2 value.toNat := by
  have hhigh : ((value >>> 8) &&& 0xFF).toUInt8 = UInt8.ofNat (value.toNat / 256) := by
    refine UInt8.toNat_inj.mp ?_
    simpa using byte_shiftRight value.toNat 8
  have hlow : (value &&& 0xFF).toUInt8 = UInt8.ofNat (value.toNat / 1) := by
    refine UInt8.toNat_inj.mp ?_
    simpa using byte_shiftRight value.toNat 0
  rw [appendU16, hhigh, hlow, List.append_assoc]
  rfl

theorem appendI16_eq (out : Bytes) (value : Int16) : appendI16 out value = out ++ packSigned 2 value.toInt := by
  have hmod : value.toInt % 256 ^ 2 = value.toUInt16.toNat := by
    rw [← Int16.toInt_toBitVec, BitVec.toInt_eq_toNat_bmod]
    exact Int.bmod_emod.trans (Int.emod_eq_of_lt (Int.natCast_nonneg _) (by exact_mod_cast BitVec.isLt _))
  rw [appendI16, appendU16_eq, packSigned, hmod, Int.toNat_natCast]

theorem appendU32_eq (out : Bytes) (value : UInt32) : appendU32 out value = out ++ packBE 4 value.toNat := by
  have hbyte (shift : UInt32) (hs : shift.toNat < 32) :
      ((value >>> shift) &&& 0xFF).toUInt8 = UInt8.ofNat (value.toNat / 2 ^ shift.toNat) := by
    refine UInt8.toNat_inj.mp ?_
    simpa [Nat.mod_eq_of_lt hs] using byte_shiftRight value.toNat shift.toNat
  simp only [appendU32, List.foldl_cons, List.foldl_nil, List.append_assoc]
  rw [hbyte 24 (by decide), hbyte 16 (by decide), hbyte 8 (by decide), hbyte 0 (by decide)]
  rfl

theorem appendU64_eq (out : Bytes) (value : UInt64) : appendU64 out value = out ++ packBE 8 value.toNat := by
  have hbyte (shift : UInt64) (hs : shift.toNat < 64) :
      ((value >>> shift) &&& 0xFF).toUInt8 = UInt8.ofNat (value.toNat / 2 ^ shift.toNat) := by
    refine UInt8.toNat_inj.mp ?_
    simpa [Nat.mod_eq_of_lt hs] using byte_shiftRight value.toNat shift.toNat
  simp only [appendU64, List.foldl_cons, List.foldl_nil, List.append_assoc]
  rw [hbyte 56 (by decide), hbyte 48 (by decide), hbyte 40 (by decide), hbyte 32 (by decide), hbyte 24 (by decide),
    hbyte 16 (by decide), hbyte 8 (by decide), hbyte 0 (by decide)]
  rfl

/-! ### The bitwise checksum -/

/-- The mask selects the polynomial exactly when the low bit is set. -/
theorem toBitVec_crcBit (crc : UInt32) : (crcBit crc).toBitVec = Crc32.shift crc.toBitVec := by
  have hmask : (-(crc &&& 1)).toBitVec = if crc.toBitVec.getLsbD 0 then BitVec.allOnes 32 else 0#32 := by
    rw [UInt32.toBitVec_neg, UInt32.toBitVec_and]
    show -(crc.toBitVec &&& 1#32) = _
    rw [BitVec.and_one_eq_setWidth_ofBool_getLsbD]
    cases crc.toBitVec.getLsbD 0 <;> rfl
  simp only [crcBit, UInt32.toBitVec_xor, UInt32.toBitVec_and, hmask, Crc32.shift]
  cases crc.toBitVec.getLsbD 0
  · simp
  · simp only [↓reduceIte, BitVec.and_allOnes]
    rfl

theorem toBitVec_crcByte (crc : UInt32) (byte : UInt8) :
    (crcByte crc byte).toBitVec = Crc32.update crc.toBitVec byte := by
  have hiterate (n : Nat) (c : UInt32) : (crcBit^[n] c).toBitVec = Crc32.shift^[n] c.toBitVec := by
    induction n generalizing c with
    | zero => rfl
    | succ n ih => rw [Function.iterate_succ_apply, ih, toBitVec_crcBit]; rfl
  rw [Crc32.update_eq, crcByte, hiterate]
  rfl

theorem toBitVec_crc32 (data : Bytes) : (crc32 data).toBitVec = Crc32.crc32 data := by
  have hfold (c : UInt32) : (data.foldl crcByte c).toBitVec = data.foldl Crc32.update c.toBitVec := by
    induction data generalizing c with
    | nil => rfl
    | cons b data ih => rw [List.foldl_cons, List.foldl_cons, ih, toBitVec_crcByte]
  rw [crc32, UInt32.toBitVec_not, hfold, Crc32.crc32, ← BitVec.xor_allOnes]
  rfl

/-! ### One wire format -/

theorem exists_mode (mode : SpacecraftMode) : ∃ m : Mode, (mode.value.toNat : Int) = m.value := by
  cases mode with
  | Boot => exact ⟨.BOOT, rfl⟩
  | Nominal => exact ⟨.NOMINAL, rfl⟩
  | Safe => exact ⟨.SAFE, rfl⟩

theorem packBE_one (b : UInt8) : packBE 1 b.toNat = [b] := by simp [packBE]

theorem inRange_packet (t : Telemetry) : t.packet.InRange := by
  obtain ⟨m, hm⟩ := exists_mode t.mode
  have hi16 (n : Int16) : -0x8000 ≤ n.toInt ∧ n.toInt ≤ 0x7FFF := ⟨n.le_toInt, Int.le_of_lt_add_one n.toInt_lt⟩
  have hunsigned {n k : Nat} (h : n < k + 1) : (0 : Int) ≤ n ∧ (n : Int) ≤ k :=
    ⟨Int.natCast_nonneg n, by exact_mod_cast Nat.le_of_lt_succ h⟩
  exact ⟨hunsigned t.sequence.toNat_lt, hunsigned t.timestampMs.toNat_lt, ⟨m, by rw [Telemetry.packet, hm, Mode.ofInt?_value]⟩,
    hunsigned t.batteryMv.toNat_lt, hunsigned t.busCurrentMa.toNat_lt, hi16 _, hi16 _, hi16 _, hi16 _⟩

/-- The onboard bytes are those that the ground station packs. -/
theorem encode_eq (t : Telemetry) : encode t = .ok (encoding t.packet) := by
  have hbody : appendI16 (appendI16 (appendI16 (appendI16 (appendU16 (appendU16 (appendU64 (appendU32
      (kMagic ++ [kVersion] ++ [0]) t.sequence) t.timestampMs ++ [t.mode.value]) t.batteryMv) t.busCurrentMa)
      t.temperatureCentiC) t.rollCentiDeg) t.pitchCentiDeg) t.yawCentiDeg = (headerFields t.packet).flatten := by
    simp only [appendU16_eq, appendI16_eq, appendU32_eq, appendU64_eq, ← packBE_one t.mode.value, List.append_assoc, headerFields,
      List.flatten_cons, List.flatten_nil, List.append_nil]
    rfl
  have hcrc (out : Bytes) : appendU32 out (crc32 out) = out ++ packBE 4 (Crc32.crc32 out).toNat := by
    rw [appendU32_eq, ← toBitVec_crc32]
    rfl
  have hlen := length_encoding t.packet
  simp only [encode, hcrc]
  rw [if_neg] <;> simp only [hbody]
  · rfl
  · exact not_not.mpr hlen

/-- The two programs implement one wire format. -/
theorem encode_eq_encodePacket :
    (∀ t : Telemetry, ∃ bs, encode t = .ok bs ∧ bs.length = PACKET_SIZE ∧ encodePacket t.packet = .ok bs ∧
      ∃ q, decodePacket bs = .ok q ∧ q.numbered = t.packet) ∧
    ∀ data, (crc32 data).toBitVec = Crc32.crc32 data := by
  refine ⟨fun t => ?_, toBitVec_crc32⟩
  have hrange := inRange_packet t
  exact ⟨encoding t.packet, encode_eq t, length_encoding _, encodePacket_eq_ok.mpr ⟨hrange, rfl⟩,
    decodePacket_encoding hrange⟩

end OrbitOps.Onboard
