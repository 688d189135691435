import OrbitOps.Protocol

/-!
# The telemetry codec is a bijection

A dataclass does not check its fields, so `encode_packet` may be given any values. It accepts the
integers in range and nothing else, decoding gives them back, and a datagram that decodes is the
encoding of what it decodes to: every byte of it is in a field, and every field is packed from the
value it was unpacked to.
-/

namespace OrbitOps
open Py

/-! ### Packets as a caller builds them -/

structure PacketValues where
  sequence : Json
  timestampMs : Json
  mode : Json
  batteryMv : Json
  busCurrentMa : Json
  temperatureCentiC : Json
  rollCentiDeg : Json
  pitchCentiDeg : Json
  yawCentiDeg : Json

def TelemetryPacket.values (p : TelemetryPacket Int) : PacketValues where
  sequence := .int p.sequence
  timestampMs := .int p.timestampMs
  mode := .int p.mode
  batteryMv := .int p.batteryMv
  busCurrentMa := .int p.busCurrentMa
  temperatureCentiC := .int p.temperatureCentiC
  rollCentiDeg := .int p.rollCentiDeg
  pitchCentiDeg := .int p.pitchCentiDeg
  yawCentiDeg := .int p.yawCentiDeg

namespace PacketValues

/-- `_require_int_range`; booleans are not integers here. -/
def requireIntRange (name : String) (value : Json) (minimum maximum : Int) : Result Int :=
  match value with
  | .int n => do
    OrbitOps.requireIntRange name n minimum maximum
    return n
  | _ => .error (typeError s!"{name} must be an integer")

/-- `Mode(packet.mode)` for an integer, `Mode` members being integers. -/
def requireMode (value : Json) : Result Int :=
  match value with
  | .int n =>
    match Mode.ofInt? n with
    | some _ => .ok n
    | none => .error (protocolError s!"invalid mode: {n}")
  | _ => .error (typeError "mode must be a Mode or integer")

/-- `_validate_packet`, with the integers that passed. -/
def validate (v : PacketValues) : Result (TelemetryPacket Int) := do
  let sequence ← requireIntRange "sequence" v.sequence 0 0xFFFFFFFF
  let timestampMs ← requireIntRange "timestamp_ms" v.timestampMs 0 0xFFFFFFFFFFFFFFFF
  let batteryMv ← requireIntRange "battery_mv" v.batteryMv 0 0xFFFF
  let busCurrentMa ← requireIntRange "bus_current_ma" v.busCurrentMa 0 0xFFFF
  let temperatureCentiC ← requireIntRange "temperature_centi_c" v.temperatureCentiC (-0x8000) 0x7FFF
  let rollCentiDeg ← requireIntRange "roll_centi_deg" v.rollCentiDeg (-0x8000) 0x7FFF
  let pitchCentiDeg ← requireIntRange "pitch_centi_deg" v.pitchCentiDeg (-0x8000) 0x7FFF
  let yawCentiDeg ← requireIntRange "yaw_centi_deg" v.yawCentiDeg (-0x8000) 0x7FFF
  let mode ← requireMode v.mode
  return ⟨sequence, timestampMs, mode, batteryMv, busCurrentMa, temperatureCentiC, rollCentiDeg, pitchCentiDeg,
    yawCentiDeg⟩

def encode (v : PacketValues) : Result Bytes := do
  let packet ← v.validate
  let body := (headerFields packet).flatten
  return body ++ packBE 4 (Crc32.crc32 body).toNat

theorem requireIntRange_eq_ok {name : String} {value : Json} {lo hi n : Int} :
    requireIntRange name value lo hi = .ok n ↔ value = .int n ∧ lo ≤ n ∧ n ≤ hi := by
  constructor
  · intro h
    cases value with
    | int k =>
      obtain ⟨⟨⟩, hrange, hk⟩ := except_bind_eq_ok.mp h
      cases hk
      exact ⟨rfl, OrbitOps.requireIntRange_eq_ok.mp hrange⟩
    | _ => cases h
  · rintro ⟨rfl, hrange⟩
    exact except_bind_eq_ok.mpr ⟨(), OrbitOps.requireIntRange_eq_ok.mpr hrange, rfl⟩

theorem requireMode_eq_ok {value : Json} {n : Int} :
    requireMode value = .ok n ↔ value = .int n ∧ ∃ m, Mode.ofInt? n = some m := by
  constructor
  · intro h
    cases value with
    | int k =>
      rw [requireMode] at h
      split at h
      · rename_i m hm
        cases h
        exact ⟨rfl, m, hm⟩
      · cases h
    | _ => cases h
  · rintro ⟨rfl, m, hm⟩
    rw [requireMode, hm]

theorem validate_eq_ok {v : PacketValues} {p : TelemetryPacket Int} :
    v.validate = .ok p ↔ v = p.values ∧ p.InRange := by
  simp only [validate, except_bind_eq_ok, requireIntRange_eq_ok, requireMode_eq_ok]
  constructor
  · rintro ⟨_, ⟨hs, hs'⟩, _, ⟨ht, ht'⟩, _, ⟨hb, hb'⟩, _, ⟨hc, hc'⟩, _, ⟨htemp, htemp'⟩, _, ⟨hr, hr'⟩, _, ⟨hp, hp'⟩,
      _, ⟨hy, hy'⟩, _, ⟨hm, hm'⟩, hval⟩
    cases hval
    refine ⟨?_, ⟨hs', ht', hm', hb', hc', htemp', hr', hp', hy'⟩⟩
    cases v
    simp only at hs ht hb hc htemp hr hp hy hm
    rw [hs, ht, hb, hc, htemp, hr, hp, hy, hm]
    rfl
  · rintro ⟨rfl, h⟩
    exact ⟨_, ⟨rfl, h.sequence⟩, _, ⟨rfl, h.timestampMs⟩, _, ⟨rfl, h.batteryMv⟩, _, ⟨rfl, h.busCurrentMa⟩,
      _, ⟨rfl, h.temperatureCentiC⟩, _, ⟨rfl, h.rollCentiDeg⟩, _, ⟨rfl, h.pitchCentiDeg⟩, _, ⟨rfl, h.yawCentiDeg⟩,
      _, ⟨rfl, h.mode⟩, rfl⟩

theorem encode_eq_ok {v : PacketValues} {bs : Bytes} :
    v.encode = .ok bs ↔ ∃ p : TelemetryPacket Int, v = p.values ∧ p.InRange ∧ bs = encoding p := by
  simp only [encode, except_bind_eq_ok, validate_eq_ok]
  constructor
  · rintro ⟨p, ⟨hv, hp⟩, hbs⟩
    cases hbs
    exact ⟨p, hv, hp, rfl⟩
  · rintro ⟨p, hv, hp, rfl⟩
    exact ⟨p, ⟨hv, hp⟩, rfl⟩

/-- On integers, encoding values is encoding the packet. -/
theorem encode_values (p : TelemetryPacket Int) (bs : Bytes) : p.values.encode = .ok bs ↔ encodePacket p = .ok bs := by
  rw [encode_eq_ok, encodePacket_eq_ok]
  constructor
  · rintro ⟨q, hq, h⟩
    have hpq : p = q := by
      cases p; cases q
      simpa [TelemetryPacket.values] using hq
    rwa [hpq]
  · exact fun h => ⟨p, rfl, h⟩

end PacketValues

/-! ### Encoding a decoded packet -/

/-- The fields of the given widths, from an offset on. -/
def fieldsAt (data : Bytes) (offset : Nat) : List Nat → List Bytes
  | [] => []
  | w :: ws => field data offset w :: fieldsAt data (offset + w) ws

theorem flatten_fieldsAt (data : Bytes) (offset : Nat) (widths : List Nat) :
    (fieldsAt data offset widths).flatten ++ data.drop (offset + widths.sum) = data.drop offset := by
  induction widths generalizing offset with
  | nil => rfl
  | cons w ws ih =>
    rw [fieldsAt, List.flatten_cons, List.sum_cons, ← Nat.add_assoc, List.append_assoc, ih, field,
      ← List.drop_drop, List.take_append_drop]

/-- What a datagram decodes to. -/
structure PacketLayout (data : Bytes) (q : DecodedPacket) : Prop where
  length : data.length = PACKET_SIZE
  magic : field data 0 4 = MAGIC
  version : unpackBE (field data 4 1) = VERSION
  flags : unpackBE (field data 5 1) = 0
  crc : unpackBE (field data 31 4) = (Crc32.crc32 (data.take HEADER_SIZE)).toNat
  sequence : q.sequence = unpackBE (field data 6 4)
  timestampMs : q.timestampMs = unpackBE (field data 10 8)
  mode : q.mode.value = unpackBE (field data 18 1)
  batteryMv : q.batteryMv = unpackBE (field data 19 2)
  busCurrentMa : q.busCurrentMa = unpackBE (field data 21 2)
  temperatureCentiC : q.temperatureCentiC = unpackSigned (field data 23 2)
  rollCentiDeg : q.rollCentiDeg = unpackSigned (field data 25 2)
  pitchCentiDeg : q.pitchCentiDeg = unpackSigned (field data 27 2)
  yawCentiDeg : q.yawCentiDeg = unpackSigned (field data 29 2)

theorem packetLayout_of_decodePacket {data : Bytes} {q : DecodedPacket} (h : decodePacket data = .ok q) :
    PacketLayout data q := by
  unfold decodePacket at h
  dsimp only at h
  split_ifs at h with hlen hmagic hversion hflags hcrc
  split at h
  · cases h
  · rename_i m hm
    cases h
    exact ⟨not_not.mp hlen, not_not.mp hmagic, not_not.mp hversion, not_not.mp hflags, not_not.mp hcrc, rfl, rfl,
      (Mode.ofInt?_eq_some hm).symm, rfl, rfl, rfl, rfl, rfl, rfl⟩

namespace PacketLayout

variable {data : Bytes} {q : DecodedPacket} (h : PacketLayout data q)
include h

theorem length_field {offset width : Nat} (hle : offset + width ≤ 35) : (field data offset width).length = width := by
  have hlen : data.length = 35 := h.length
  rw [field, List.length_take, List.length_drop]
  omega

theorem packBE_field {offset width : Nat} {n : Int} (hn : n = unpackBE (field data offset width))
    (hle : offset + width ≤ 35) : packBE width n.toNat = field data offset width := by
  have hpack := packBE_unpackBE (field data offset width)
  rwa [h.length_field hle, ← Int.toNat_natCast (unpackBE (field data offset width)), ← hn] at hpack

theorem packSigned_field {offset : Nat} {n : Int} (hn : n = unpackSigned (field data offset 2))
    (hle : offset + 2 ≤ 35) : packSigned 2 n = field data offset 2 := by
  have hpack := packSigned_unpackSigned (field data offset 2)
  rwa [h.length_field hle, ← hn] at hpack

/-- The body of the datagram is the body that its packet is packed to. -/
theorem headerFields_numbered : headerFields q.numbered = fieldsAt data 0 [4, 1, 1, 4, 8, 1, 2, 2, 2, 2, 2, 2] := by
  have hversion : packBE 1 VERSION = field data 4 1 :=
    h.packBE_field (congrArg Nat.cast h.version.symm) (by decide)
  have hflags : packBE 1 0 = field data 5 1 := h.packBE_field (congrArg Nat.cast h.flags.symm) (by decide)
  simp only [headerFields, TelemetryPacket.numbered, fieldsAt]
  rw [h.magic, hversion, hflags, h.packBE_field h.sequence (by decide), h.packBE_field h.timestampMs (by decide),
    h.packBE_field h.mode (by decide), h.packBE_field h.batteryMv (by decide),
    h.packBE_field h.busCurrentMa (by decide), h.packSigned_field h.temperatureCentiC (by decide),
    h.packSigned_field h.rollCentiDeg (by decide), h.packSigned_field h.pitchCentiDeg (by decide),
    h.packSigned_field h.yawCentiDeg (by decide)]

/-- A datagram that decodes is the encoding of its packet. -/
theorem encoding_numbered : encoding q.numbered = data := by
  have hlen : data.length = 35 := h.length
  have hbody := flatten_fieldsAt data 0 [4, 1, 1, 4, 8, 1, 2, 2, 2, 2, 2, 2]
  have hdrop : data.drop 31 = packBE 4 (Crc32.crc32 (data.take HEADER_SIZE)).toNat := by
    have hfield : field data 31 4 = data.drop 31 := List.take_of_length_le (by rw [List.length_drop]; omega)
    rw [← hfield, ← h.crc]
    exact (h.packBE_field rfl (by decide)).symm
  have htake : (headerFields q.numbered).flatten = data.take HEADER_SIZE := by
    have happ : (headerFields q.numbered).flatten ++ data.drop 31 = data.take 31 ++ data.drop 31 := by
      rw [h.headerFields_numbered, List.take_append_drop]
      exact hbody
    exact List.append_cancel_right happ
  rw [encoding, htake, ← hdrop]
  exact List.take_append_drop ..

end PacketLayout

/-- Encoding and decoding are inverse to each other between the packets in range and the datagrams that are accepted. -/
theorem codec_bijective :
    (∀ (v : PacketValues) bs, v.encode = .ok bs → ∃ q, decodePacket bs = .ok q ∧ q.numbered.values = v) ∧
    (∀ d q, decodePacket d = .ok q → q.numbered.values.encode = .ok d) ∧
    (∀ v : PacketValues, (∃ e, v.encode = .error e) ↔ ¬∃ p : TelemetryPacket Int, v = p.values ∧ p.InRange) ∧
    (∀ d, (∀ v : PacketValues, v.encode ≠ .ok d) → ∃ e, decodePacket d = .error e ∧ e.cls = .protocolError) := by
  have hencode : ∀ d q, decodePacket d = .ok q → q.numbered.values.encode = .ok d := by
    intro d q hd
    exact PacketValues.encode_eq_ok.mpr
      ⟨_, rfl, decodePacket_inRange hd, (packetLayout_of_decodePacket hd).encoding_numbered.symm⟩
  refine ⟨?_, hencode, ?_, ?_⟩
  · intro v bs hv
    obtain ⟨p, rfl, hp, rfl⟩ := PacketValues.encode_eq_ok.mp hv
    obtain ⟨q, hq, hqp⟩ := decodePacket_encoding hp
    exact ⟨q, hq, by rw [hqp]⟩
  · intro v
    constructor
    · rintro ⟨e, he⟩ ⟨p, hv, hp⟩
      rw [PacketValues.encode_eq_ok.mpr ⟨p, hv, hp, rfl⟩] at he
      cases he
    · intro hno
      cases hv : v.encode with
      | error e => exact ⟨e, rfl⟩
      | ok bs =>
        obtain ⟨p, hvp, hp, -⟩ := PacketValues.encode_eq_ok.mp hv
        exact absurd ⟨p, hvp, hp⟩ hno
  · intro d hd
    cases hdec : decodePacket d with
    | error e => exact ⟨e, rfl, decodePacket_error hdec⟩
    | ok q => exact absurd (hencode d q hdec) (hd _)

end OrbitOps
