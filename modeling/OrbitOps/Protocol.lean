import OrbitOps.Errors
import OrbitOps.Py.Crc32
import OrbitOps.Py.Float64
import OrbitOps.Py.Printable

/-!
# The binary telemetry protocol

A packet is 35 bytes: a 31-byte big-endian body and its CRC-32. A packet to be encoded has integer
fields and a mode number; a decoded packet has a `Mode`.
-/

namespace OrbitOps
open Py

def MAGIC : Bytes := [0x4F, 0x52, 0x42, 0x54]
def VERSION : Nat := 1
def HEADER_SIZE : Nat := 31
def PACKET_SIZE : Nat := 35

inductive Mode where
  | BOOT
  | NOMINAL
  | SAFE
deriving DecidableEq, Repr

namespace Mode

/-- The number of a mode; a `Mode` is an `IntEnum`. -/
def value : Mode → Int
  | BOOT => 0
  | NOMINAL => 1
  | SAFE => 2

def name : Mode → String
  | BOOT => "BOOT"
  | NOMINAL => "NOMINAL"
  | SAFE => "SAFE"

/-- `Mode(n)`; nothing stands for `ValueError`. -/
def ofInt? (n : Int) : Option Mode :=
  if n = 0 then some BOOT else if n = 1 then some NOMINAL else if n = 2 then some SAFE else none

theorem ofInt?_value (m : Mode) : ofInt? m.value = some m := by
  cases m <;> rfl

theorem ofInt?_eq_some {n : Int} {m : Mode} (h : ofInt? n = some m) : n = m.value := by
  unfold ofInt? at h
  split_ifs at h with h0 h1 h2 <;> cases h <;> assumption

end Mode

/-- Telemetry fields, with modes of type `μ`. -/
structure TelemetryPacket (μ : Type) where
  sequence : Int
  timestampMs : Int
  mode : μ
  batteryMv : Int
  busCurrentMa : Int
  temperatureCentiC : Int
  rollCentiDeg : Int
  pitchCentiDeg : Int
  yawCentiDeg : Int
deriving DecidableEq, Repr

/-- A packet as `decode_packet` returns it. -/
abbrev DecodedPacket := TelemetryPacket Mode

/-- The packet with the number of its mode: what `==` compares. -/
def TelemetryPacket.numbered (p : DecodedPacket) : TelemetryPacket Int := { p with mode := p.mode.value }

def requireIntRange (name : String) (value minimum maximum : Int) : Result Unit :=
  if minimum ≤ value ∧ value ≤ maximum then .ok ()
  else .error (protocolError s!"{name} must be between {minimum} and {maximum}, got {value}")

def validatePacket (packet : TelemetryPacket Int) : Result Unit := do
  requireIntRange "sequence" packet.sequence 0 0xFFFFFFFF
  requireIntRange "timestamp_ms" packet.timestampMs 0 0xFFFFFFFFFFFFFFFF
  requireIntRange "battery_mv" packet.batteryMv 0 0xFFFF
  requireIntRange "bus_current_ma" packet.busCurrentMa 0 0xFFFF
  requireIntRange "temperature_centi_c" packet.temperatureCentiC (-0x8000) 0x7FFF
  requireIntRange "roll_centi_deg" packet.rollCentiDeg (-0x8000) 0x7FFF
  requireIntRange "pitch_centi_deg" packet.pitchCentiDeg (-0x8000) 0x7FFF
  requireIntRange "yaw_centi_deg" packet.yawCentiDeg (-0x8000) 0x7FFF
  match Mode.ofInt? packet.mode with
  | some _ => .ok ()
  | none => .error (protocolError s!"invalid mode: {packet.mode}")

/-- The fields of the body in wire order, `"!4sBBIQBHHhhhh"`. -/
def headerFields (packet : TelemetryPacket Int) : List Bytes :=
  [MAGIC, packBE 1 VERSION, packBE 1 0, packBE 4 packet.sequence.toNat, packBE 8 packet.timestampMs.toNat,
    packBE 1 packet.mode.toNat, packBE 2 packet.batteryMv.toNat, packBE 2 packet.busCurrentMa.toNat,
    packSigned 2 packet.temperatureCentiC, packSigned 2 packet.rollCentiDeg,
    packSigned 2 packet.pitchCentiDeg, packSigned 2 packet.yawCentiDeg]

def encodePacket (packet : TelemetryPacket Int) : Result Bytes := do
  validatePacket packet
  let body := (headerFields packet).flatten
  return body ++ packBE 4 (Crc32.crc32 body).toNat

/-- The bytes of one wire field. -/
def field (data : Bytes) (offset width : Nat) : Bytes := (data.drop offset).take width

def decodePacket (data : Bytes) : Result DecodedPacket :=
  if data.length ≠ PACKET_SIZE then
    .error (protocolError s!"expected {PACKET_SIZE} bytes, got {data.length}")
  else
    let magic := field data 0 4
    let version := unpackBE (field data 4 1)
    let flags := unpackBE (field data 5 1)
    let received_crc := unpackBE (field data 31 4)
    let calculated_crc := (Crc32.crc32 (data.take HEADER_SIZE)).toNat
    if magic ≠ MAGIC then .error (protocolError ("invalid magic: " ++ reprBytes magic))
    else if version ≠ VERSION then .error (protocolError s!"unsupported version: {version}")
    else if flags ≠ 0 then .error (protocolError ("unsupported flags: 0x" ++ hexUpper 2 flags))
    else if received_crc ≠ calculated_crc then
      .error (protocolError ("CRC mismatch: received 0x" ++ hexUpper 8 received_crc ++
        ", calculated 0x" ++ hexUpper 8 calculated_crc))
    else
      match Mode.ofInt? (unpackBE (field data 18 1)) with
      | none => .error (protocolError s!"invalid mode: {unpackBE (field data 18 1)}")
      | some mode => .ok {
          sequence := unpackBE (field data 6 4)
          timestampMs := unpackBE (field data 10 8)
          mode := mode
          batteryMv := unpackBE (field data 19 2)
          busCurrentMa := unpackBE (field data 21 2)
          temperatureCentiC := unpackSigned (field data 23 2)
          rollCentiDeg := unpackSigned (field data 25 2)
          pitchCentiDeg := unpackSigned (field data 27 2)
          yawCentiDeg := unpackSigned (field data 29 2) }

/-! ### What encoding accepts -/

/-- Every field fits its place on the wire and the mode is defined. -/
structure TelemetryPacket.InRange (p : TelemetryPacket Int) : Prop where
  sequence : 0 ≤ p.sequence ∧ p.sequence ≤ 0xFFFFFFFF
  timestampMs : 0 ≤ p.timestampMs ∧ p.timestampMs ≤ 0xFFFFFFFFFFFFFFFF
  mode : ∃ m, Mode.ofInt? p.mode = some m
  batteryMv : 0 ≤ p.batteryMv ∧ p.batteryMv ≤ 0xFFFF
  busCurrentMa : 0 ≤ p.busCurrentMa ∧ p.busCurrentMa ≤ 0xFFFF
  temperatureCentiC : -0x8000 ≤ p.temperatureCentiC ∧ p.temperatureCentiC ≤ 0x7FFF
  rollCentiDeg : -0x8000 ≤ p.rollCentiDeg ∧ p.rollCentiDeg ≤ 0x7FFF
  pitchCentiDeg : -0x8000 ≤ p.pitchCentiDeg ∧ p.pitchCentiDeg ≤ 0x7FFF
  yawCentiDeg : -0x8000 ≤ p.yawCentiDeg ∧ p.yawCentiDeg ≤ 0x7FFF

theorem requireIntRange_eq_ok {name : String} {value lo hi : Int} :
    requireIntRange name value lo hi = .ok () ↔ lo ≤ value ∧ value ≤ hi := by
  unfold requireIntRange
  split_ifs with h <;> simp [h]

theorem validatePacket_eq_ok {p : TelemetryPacket Int} : validatePacket p = .ok () ↔ p.InRange := by
  simp only [validatePacket, except_bind_eq_ok]
  constructor
  · rintro ⟨⟨⟩, hs, ⟨⟩, ht, ⟨⟩, hb, ⟨⟩, hc, ⟨⟩, htemp, ⟨⟩, hr, ⟨⟩, hp, ⟨⟩, hy, hm⟩
    simp only [requireIntRange_eq_ok] at hs ht hb hc htemp hr hp hy
    refine ⟨hs, ht, ?_, hb, hc, htemp, hr, hp, hy⟩
    cases hmode : Mode.ofInt? p.mode with
    | none => rw [hmode] at hm; cases hm
    | some m => exact ⟨m, rfl⟩
  · intro h
    obtain ⟨m, hm⟩ := h.mode
    exact ⟨(), requireIntRange_eq_ok.mpr h.sequence, (), requireIntRange_eq_ok.mpr h.timestampMs,
      (), requireIntRange_eq_ok.mpr h.batteryMv, (), requireIntRange_eq_ok.mpr h.busCurrentMa,
      (), requireIntRange_eq_ok.mpr h.temperatureCentiC, (), requireIntRange_eq_ok.mpr h.rollCentiDeg,
      (), requireIntRange_eq_ok.mpr h.pitchCentiDeg, (), requireIntRange_eq_ok.mpr h.yawCentiDeg, by rw [hm]⟩

def encoding (p : TelemetryPacket Int) : Bytes :=
  (headerFields p).flatten ++ packBE 4 (Crc32.crc32 (headerFields p).flatten).toNat

theorem encodePacket_eq_ok {p : TelemetryPacket Int} {bs : Bytes} :
    encodePacket p = .ok bs ↔ p.InRange ∧ bs = encoding p := by
  simp only [encodePacket, except_bind_eq_ok]
  constructor
  · rintro ⟨⟨⟩, h, hb⟩
    cases hb
    exact ⟨validatePacket_eq_ok.mp h, rfl⟩
  · rintro ⟨h, rfl⟩
    exact ⟨(), validatePacket_eq_ok.mpr h, rfl⟩

/-- A packet in nominal mode, for tests. -/
def nominalPacket : TelemetryPacket Int where
  sequence := 7
  timestampMs := 123456
  mode := 1
  batteryMv := 8100
  busCurrentMa := 420
  temperatureCentiC := 2450
  rollCentiDeg := -120
  pitchCentiDeg := 230
  yawCentiDeg := 340

/-! ### Decoding an encoding -/

theorem field_append_right (a b : Bytes) (k w : Nat) : field (a ++ b) (a.length + k) w = field b k w := by
  rw [field, field, List.drop_append, List.drop_eq_nil_of_le (by omega), Nat.add_sub_cancel_left, List.nil_append]

theorem field_flatten {fs : List Bytes} {rest : Bytes} {i offset width : Nat} {f : Bytes} (hi : fs[i]? = some f)
    (ho : ((fs.take i).map List.length).sum = offset) (hw : f.length = width) :
    field (fs.flatten ++ rest) offset width = f := by
  induction fs generalizing i offset with
  | nil => simp at hi
  | cons g fs ih =>
    cases i with
    | zero =>
      simp only [List.take_zero, List.map_nil, List.sum_nil, List.getElem?_cons_zero, Option.some.injEq] at hi ho
      subst hi ho hw
      simp [field]
    | succ i =>
      simp only [List.take_succ_cons, List.map_cons, List.sum_cons, List.getElem?_cons_succ] at hi ho
      rw [List.flatten_cons, List.append_assoc, ← ho, field_append_right]
      exact ih hi rfl

theorem length_headerFields (p : TelemetryPacket Int) : (headerFields p).flatten.length = HEADER_SIZE := by
  simp [headerFields, MAGIC, packSigned, HEADER_SIZE]

theorem length_encoding (p : TelemetryPacket Int) : (encoding p).length = PACKET_SIZE := by
  rw [encoding, List.length_append, length_headerFields, length_packBE]; rfl

theorem take_encoding (p : TelemetryPacket Int) : (encoding p).take HEADER_SIZE = (headerFields p).flatten := by
  rw [encoding, ← length_headerFields p, List.take_left]

theorem field_crc_encoding (p : TelemetryPacket Int) :
    field (encoding p) 31 4 = packBE 4 (Crc32.crc32 (headerFields p).flatten).toNat := by
  have h := length_headerFields p
  rw [encoding, show (31 : Nat) = (headerFields p).flatten.length + 0 by rw [h]; rfl, field_append_right]
  simp [field]

/-- The field at position `i` of the body is where its offset says. -/
theorem field_encoding {p : TelemetryPacket Int} {f : Bytes} (i : Nat) (offset width : Nat)
    (hi : (headerFields p)[i]? = some f) (ho : (([4, 1, 1, 4, 8, 1, 2, 2, 2, 2, 2, 2] : List Nat).take i).sum = offset)
    (hw : f.length = width) : field (encoding p) offset width = f := by
  have hlens : (headerFields p).map List.length = [4, 1, 1, 4, 8, 1, 2, 2, 2, 2, 2, 2] := by
    simp [headerFields, MAGIC, packSigned]
  exact field_flatten hi (by rw [List.map_take, hlens, ho]) hw

theorem unpackBE_field_encoding {p : TelemetryPacket Int} {n : Int} (i offset w : Nat)
    (hi : (headerFields p)[i]? = some (packBE w n.toNat))
    (ho : (([4, 1, 1, 4, 8, 1, 2, 2, 2, 2, 2, 2] : List Nat).take i).sum = offset) (h0 : 0 ≤ n) (hn : n < 256 ^ w) :
    (unpackBE (field (encoding p) offset w) : Int) = n := by
  have hlt : n.toNat < 256 ^ w := by
    zify
    rwa [Int.toNat_of_nonneg h0]
  rw [field_encoding i offset w hi ho (length_packBE ..), unpackBE_packBE_of_lt hlt, Int.toNat_of_nonneg h0]

theorem unpackSigned_field_encoding {p : TelemetryPacket Int} {n : Int} (i offset : Nat)
    (hi : (headerFields p)[i]? = some (packSigned 2 n))
    (ho : (([4, 1, 1, 4, 8, 1, 2, 2, 2, 2, 2, 2] : List Nat).take i).sum = offset) (h : -0x8000 ≤ n ∧ n ≤ 0x7FFF) :
    unpackSigned (field (encoding p) offset 2) = n := by
  rw [field_encoding i offset 2 hi ho (length_packBE ..), unpackSigned_packSigned] <;> omega

theorem decodePacket_encoding {p : TelemetryPacket Int} (h : p.InRange) :
    ∃ q, decodePacket (encoding p) = .ok q ∧ q.numbered = p := by
  obtain ⟨m, hm⟩ := h.mode
  have hmode : p.mode = m.value := Mode.ofInt?_eq_some hm
  have hmagic : field (encoding p) 0 4 = MAGIC := field_encoding 0 0 4 rfl rfl rfl
  have hversion : unpackBE (field (encoding p) 4 1) = VERSION := by
    rw [field_encoding 1 4 1 rfl rfl (length_packBE ..)]; rfl
  have hflags : unpackBE (field (encoding p) 5 1) = 0 := by
    rw [field_encoding 2 5 1 rfl rfl (length_packBE ..)]; rfl
  have hcrc : unpackBE (field (encoding p) 31 4) = (Crc32.crc32 ((encoding p).take HEADER_SIZE)).toNat := by
    rw [field_crc_encoding, take_encoding, unpackBE_packBE_of_lt]
    exact BitVec.isLt _
  have hmodeField : (unpackBE (field (encoding p) 18 1) : Int) = p.mode :=
    unpackBE_field_encoding 5 18 1 rfl rfl (by rw [hmode]; cases m <;> decide) (by rw [hmode]; cases m <;> decide)
  have hlt {n k : Int} {w : Nat} (hn : n ≤ k) (hk : k < 256 ^ w) : n < 256 ^ w := lt_of_le_of_lt hn hk
  rw [decodePacket, if_neg (by rw [length_encoding]; exact not_not.mpr rfl)]
  dsimp only
  rw [if_neg (not_not.mpr hmagic), if_neg (not_not.mpr hversion), if_neg (not_not.mpr hflags),
    if_neg (not_not.mpr hcrc), hmodeField, hm]
  refine ⟨_, rfl, ?_⟩
  simp only [TelemetryPacket.numbered]
  rw [unpackBE_field_encoding 3 6 4 rfl rfl h.sequence.1 (hlt h.sequence.2 (by decide)),
    unpackBE_field_encoding 4 10 8 rfl rfl h.timestampMs.1 (hlt h.timestampMs.2 (by decide)),
    unpackBE_field_encoding 6 19 2 rfl rfl h.batteryMv.1 (hlt h.batteryMv.2 (by decide)),
    unpackBE_field_encoding 7 21 2 rfl rfl h.busCurrentMa.1 (hlt h.busCurrentMa.2 (by decide)),
    unpackSigned_field_encoding 8 23 rfl rfl h.temperatureCentiC,
    unpackSigned_field_encoding 9 25 rfl rfl h.rollCentiDeg,
    unpackSigned_field_encoding 10 27 rfl rfl h.pitchCentiDeg,
    unpackSigned_field_encoding 11 29 rfl rfl h.yawCentiDeg, ← hmode]

/-! ### What decoding returns and raises -/

theorem decodePacket_error {data : Bytes} {e : PyError} (h : decodePacket data = .error e) :
    e.cls = .protocolError := by
  unfold decodePacket at h
  dsimp only at h
  split_ifs at h
  all_goals try (cases h; rfl)
  split at h
  · cases h; rfl
  · cases h

/-- The reason of a rejection is printable, whatever the bytes. -/
theorem printable_decodePacket_error {data : Bytes} {e : PyError} (h : decodePacket data = .error e) :
    Printable e.message := by
  have hnat (n : Nat) : Printable (toString n) := printable_toString_nat n
  have hconcat {a b : String} (ha : Printable a) (hb : Printable b) : Printable (a ++ b) := ha.append hb
  unfold decodePacket at h
  dsimp only at h
  split_ifs at h
  · cases h
    exact (((by decide : Printable "expected ").append (hnat _)).append (by decide)).append (hnat _)
  · cases h
    exact (by decide : Printable "invalid magic: ").append (printable_reprBytes _)
  · cases h
    exact (by decide : Printable "unsupported version: ").append (hnat _)
  · cases h
    exact (by decide : Printable "unsupported flags: 0x").append (printable_hexUpper _ _)
  · cases h
    exact (((by decide : Printable "CRC mismatch: received 0x").append (printable_hexUpper _ _)).append
      (by decide)).append (printable_hexUpper _ _)
  · split at h
    · cases h
      exact (by decide : Printable "invalid mode: ").append (hnat _)
    · cases h

theorem decodePacket_ok_crc {data : Bytes} {p : DecodedPacket} (h : decodePacket data = .ok p) :
    data.length = PACKET_SIZE ∧ unpackBE (field data 31 4) = (Crc32.crc32 (data.take HEADER_SIZE)).toNat := by
  unfold decodePacket at h
  dsimp only at h
  split_ifs at h with hlen _ _ _ hcrc
  exact ⟨not_not.mp hlen, not_not.mp hcrc⟩

/-- A datagram whose checksum field is not the checksum of its body is rejected. -/
theorem decodePacket_of_crc_ne {data : Bytes}
    (h : unpackBE (field data 31 4) ≠ (Crc32.crc32 (data.take HEADER_SIZE)).toNat) :
    ∃ e, decodePacket data = .error e ∧ e.cls = .protocolError := by
  cases hd : decodePacket data with
  | error e => exact ⟨e, rfl, decodePacket_error hd⟩
  | ok p => exact absurd (decodePacket_ok_crc hd).2 h

theorem decodePacket_byte_changed {p : TelemetryPacket Int} {pre suf : Bytes} {b b' : UInt8}
    (h : encoding p = pre ++ b :: suf) (hne : b ≠ b') :
    ∃ e, decodePacket (pre ++ b' :: suf) = .error e ∧ e.cls = .protocolError := by
  have hlen : (pre ++ b :: suf).length = 35 := by rw [← h, length_encoding]; rfl
  have hlen' : pre.length + (suf.length + 1) = 35 := by simpa using hlen
  have hcrc : unpackBE (field (pre ++ b :: suf) 31 4) = (Crc32.crc32 ((pre ++ b :: suf).take HEADER_SIZE)).toNat := by
    rw [← h, field_crc_encoding, take_encoding, unpackBE_packBE_of_lt]
    exact BitVec.isLt _
  refine decodePacket_of_crc_ne ?_
  by_cases hbody : pre.length < 31
  · -- the changed byte is in the body: the checksum changes, the checksum field does not
    have hdrop (c : UInt8) : (pre ++ c :: suf).drop 31 = suf.drop (30 - pre.length) := by
      rw [List.drop_append, List.drop_eq_nil_of_le (by omega), List.nil_append,
        show 31 - pre.length = (30 - pre.length) + 1 by omega, List.drop_succ_cons]
    have htake (c : UInt8) : (pre ++ c :: suf).take HEADER_SIZE = pre ++ c :: suf.take (30 - pre.length) := by
      rw [HEADER_SIZE, List.take_append, List.take_of_length_le (by omega),
        show 31 - pre.length = (30 - pre.length) + 1 by omega, List.take_succ_cons]
    rw [field, hdrop, htake] at hcrc ⊢
    rw [hcrc]
    exact fun heq => Crc32.crc32_ne hne (BitVec.eq_of_toNat_eq heq)
  · -- the changed byte is in the checksum field
    have htake (c : UInt8) : (pre ++ c :: suf).take HEADER_SIZE = pre.take HEADER_SIZE := by
      rw [List.take_append_of_le_length (by rw [HEADER_SIZE]; omega)]
    have hfield (c : UInt8) : field (pre ++ c :: suf) 31 4 = pre.drop 31 ++ c :: suf := by
      rw [field, List.drop_append_of_le_length (by omega), List.take_of_length_le]
      simp only [List.length_append, List.length_drop, List.length_cons]
      omega
    rw [htake, hfield] at hcrc ⊢
    rw [← hcrc]
    intro heq
    have := unpackBE_injective (by simp) heq
    rw [List.append_cancel_left_eq, List.cons.injEq] at this
    exact hne this.1.symm

theorem unpackBE_field_lt (data : Bytes) (offset width : Nat) : unpackBE (field data offset width) < 256 ^ width :=
  Nat.lt_of_lt_of_le (unpackBE_lt _) (Nat.pow_le_pow_right (by decide) (by simp [field]))

theorem unpackSigned_bounds {bs : Bytes} (h : bs.length = 2) : -0x8000 ≤ unpackSigned bs ∧ unpackSigned bs ≤ 0x7FFF := by
  have hlt := unpackBE_lt bs
  unfold unpackSigned
  rw [h] at hlt ⊢
  split_ifs <;> omega

theorem decodePacket_inRange {data : Bytes} {p : DecodedPacket} (h : decodePacket data = .ok p) :
    p.numbered.InRange := by
  have hlen := (decodePacket_ok_crc h).1
  have signed (offset : Nat) (ho : offset + 2 ≤ 35) := unpackSigned_bounds (show (field data offset 2).length = 2 by
    simp only [field, List.length_take, List.length_drop, hlen, PACKET_SIZE]; omega)
  have u4 := unpackBE_field_lt data 6 4
  have u8 := unpackBE_field_lt data 10 8
  have b2 := unpackBE_field_lt data 19 2
  have c2 := unpackBE_field_lt data 21 2
  unfold decodePacket at h
  dsimp only at h
  split_ifs at h
  split at h
  · cases h
  · cases h
    refine ⟨⟨?_, ?_⟩, ⟨?_, ?_⟩, ⟨_, Mode.ofInt?_value _⟩, ⟨?_, ?_⟩, ⟨?_, ?_⟩,
      signed 23 (by omega), signed 25 (by omega), signed 27 (by omega), signed 29 (by omega)⟩ <;>
    simp only [TelemetryPacket.numbered] <;> omega

end OrbitOps
