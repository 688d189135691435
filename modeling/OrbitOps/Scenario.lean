import Mathlib.Algebra.Order.Round
import Mathlib.Data.Int.ModEq
import OrbitOps.Onboard
import OrbitOps.Py.FloatText

/-!
# Scenario telemetry

The demonstration curves of the simulator, over any ordered field in place of the doubles and with any
`sin` and `cos` into `[-1, 1]`. Every field of a packet is a whole number that is checked against its
fixed-width type before it is cast, so a packet that is built shows the curves themselves
(`makeScenarioTelemetry_eq_ok`).
-/

namespace OrbitOps.Onboard
open Py

inductive Scenario where
  | Nominal
  | Thermal
  | Power
deriving DecidableEq, Repr

section
variable {K : Type} [Field K] [LinearOrder K] [FloorRing K]

/-- `std::round`, halves away from zero. -/
def stdRound (x : K) : K := if 0 ≤ x then ((⌊x + 1 / 2⌋ : Int) : K) else ((⌈x - 1 / 2⌉ : Int) : K)

/-- The conversion to an integer type, towards zero. -/
def truncate (x : K) : Int := if 0 ≤ x then ⌊x⌋ else ⌈x⌉

/-- `std::fmod`. -/
def fmod (x y : K) : K := x - y * (truncate (x / y) : Int)

/-- `std::to_string` of a double. -/
def toStringF (x : K) : String :=
  let micros := ⌊|x| * 10 ^ 6 + 1 / 2⌋.toNat
  (if x < 0 then "-" else "") ++ String.ofList (natDigits (micros / 10 ^ 6)) ++ "." ++
    padLeft '0' 6 (String.ofList (natDigits (micros % 10 ^ 6)))

def kScenarioPhaseDivisor : K := 8
def kNominalTemperatureC : K := 24
def kTemperatureOscillationC : K := 18 / 10
def kNominalBatteryV : K := 81 / 10
def kNominalBatteryDrainPerPacketV : K := 25 / 10000
def kThermalRisePerPacketC : K := 72 / 100
def kPowerDrainPerPacketV : K := 35 / 1000
def kSafeTemperatureC : K := 60
def kSafeBatteryV : K := 7
def kBootPacketCount : UInt32 := 3
def kMillivoltsPerVolt : K := 1000
def kCentiUnitsPerUnit : K := 100
def kNominalBusCurrentMa : K := 420
def kBusCurrentOscillationMa : K := 35
def kRollAmplitudeCentiDeg : K := 450
def kPitchAmplitudeCentiDeg : K := 320
def kYawStepCentiDeg : K := 725
def kHalfTurnCentiDeg : K := 18000
def kFullTurnCentiDeg : K := 36000

/-- `checked_fixed_width`, with the limits of the type; without doubles there is nothing infinite. The
integer is still to be stored in the type. -/
def checkedFixedWidth (lowest highest : Int) (value : K) (field : String) (sequence : UInt32) : Except String Int :=
  if value < lowest ∨ highest < value then
    .error (field ++ " value " ++ toStringF value ++ " is outside [" ++ toStringF (lowest : K) ++ ", " ++
      toStringF (highest : K) ++ "] at sequence " ++ toString sequence.toNat)
  else .ok (truncate value)

def checkedUInt16 (value : K) (field : String) (sequence : UInt32) : Except String UInt16 :=
  (checkedFixedWidth 0 65535 value field sequence).map fun n => UInt16.ofNat n.toNat

def checkedInt16 (value : K) (field : String) (sequence : UInt32) : Except String Int16 :=
  (checkedFixedWidth (-32768) 32767 value field sequence).map Int16.ofInt

/-- The doubles of the fields of a packet, before they are checked. -/
structure Curves (K : Type) where
  mode : SpacecraftMode
  batteryMv : K
  busCurrentMa : K
  temperatureCentiC : K
  rollCentiDeg : K
  pitchCentiDeg : K
  yawCentiDeg : K

/-- `make_scenario_telemetry` up to its checks. -/
def curves (sin cos : K → K) (sequence : UInt32) (scenario : Scenario) : Curves K :=
  let phase := (sequence.toNat : K) / kScenarioPhaseDivisor
  let temperature := kNominalTemperatureC + kTemperatureOscillationC * sin phase
  let battery := kNominalBatteryV - kNominalBatteryDrainPerPacketV * (sequence.toNat : K)
  let temperature := if scenario = .Thermal then temperature + kThermalRisePerPacketC * (sequence.toNat : K)
    else temperature
  let battery := if scenario = .Power then battery - kPowerDrainPerPacketV * (sequence.toNat : K) else battery
  { mode :=
      if kSafeTemperatureC ≤ temperature ∨ battery ≤ kSafeBatteryV then .Safe
      else if sequence < kBootPacketCount then .Boot
      else .Nominal
    batteryMv := stdRound (max 0 battery * kMillivoltsPerVolt)
    busCurrentMa := stdRound (kNominalBusCurrentMa + kBusCurrentOscillationMa * sin (phase * (7 / 10)))
    temperatureCentiC := stdRound (temperature * kCentiUnitsPerUnit)
    rollCentiDeg := stdRound (kRollAmplitudeCentiDeg * sin (phase * (5 / 10)))
    pitchCentiDeg := stdRound (kPitchAmplitudeCentiDeg * cos (phase * (4 / 10)))
    yawCentiDeg :=
      fmod ((sequence.toNat : K) * kYawStepCentiDeg + kHalfTurnCentiDeg) kFullTurnCentiDeg - kHalfTurnCentiDeg }

/-- `make_scenario_telemetry`; an error is the message of the `std::overflow_error`. -/
def makeScenarioTelemetry (sin cos : K → K) (sequence : UInt32) (timestampMs : UInt64) (scenario : Scenario) :
    Except String Telemetry := do
  let c := curves sin cos sequence scenario
  let batteryMv ← checkedUInt16 c.batteryMv "battery_mv" sequence
  let busCurrentMa ← checkedUInt16 c.busCurrentMa "bus_current_ma" sequence
  let temperatureCentiC ← checkedInt16 c.temperatureCentiC "temperature_centi_c" sequence
  let rollCentiDeg ← checkedInt16 c.rollCentiDeg "roll_centi_deg" sequence
  let pitchCentiDeg ← checkedInt16 c.pitchCentiDeg "pitch_centi_deg" sequence
  let yawCentiDeg ← checkedInt16 c.yawCentiDeg "yaw_centi_deg" sequence
  return {
    sequence := sequence
    timestampMs := timestampMs
    mode := c.mode
    batteryMv := batteryMv
    busCurrentMa := busCurrentMa
    temperatureCentiC := temperatureCentiC
    rollCentiDeg := rollCentiDeg
    pitchCentiDeg := pitchCentiDeg
    yawCentiDeg := yawCentiDeg }

/-! ### Rounding -/

/-- The value is a whole number between two bounds. -/
def Whole (lo hi : Int) (x : K) : Prop := ∃ n : Int, x = n ∧ lo ≤ n ∧ n ≤ hi

variable [IsStrictOrderedRing K]

omit [IsStrictOrderedRing K] in
theorem exists_stdRound (x : K) : ∃ n : Int, stdRound x = n := by
  unfold stdRound
  split_ifs
  · exact ⟨_, rfl⟩
  · exact ⟨_, rfl⟩

theorem stdRound_le {x : K} {hi : Int} (h : x ≤ hi) : stdRound x ≤ hi := by
  unfold stdRound
  split_ifs with h0
  · have hlt : x + 1 / 2 < ((hi + 1 : Int) : K) := by push_cast; linarith
    exact_mod_cast Int.lt_add_one_iff.mp (Int.floor_lt.mpr hlt)
  · have hle : x - 1 / 2 ≤ hi := by linarith
    exact_mod_cast Int.ceil_le.mpr hle

theorem le_stdRound {x : K} {lo : Int} (h : (lo : K) ≤ x) : (lo : K) ≤ stdRound x := by
  unfold stdRound
  split_ifs with h0
  · have hle : (lo : K) ≤ x + 1 / 2 := by linarith
    exact_mod_cast Int.le_floor.mpr hle
  · have hlt : ((lo - 1 : Int) : K) < x - 1 / 2 := by push_cast; linarith
    exact_mod_cast Int.sub_one_lt_iff.mp (Int.lt_ceil.mpr hlt)

theorem whole_stdRound {x : K} {lo hi : Int} (hlo : (lo : K) ≤ x) (hhi : x ≤ hi) : Whole lo hi (stdRound x) := by
  obtain ⟨n, hn⟩ := exists_stdRound x
  have h1 := le_stdRound hlo
  have h2 := stdRound_le hhi
  rw [hn] at h1 h2
  exact ⟨n, hn, by exact_mod_cast h1, by exact_mod_cast h2⟩

theorem truncate_intCast (n : Int) : truncate (n : K) = n := by
  unfold truncate
  split_ifs
  · exact Int.floor_intCast n
  · exact Int.ceil_intCast n

/-- The remainder of whole numbers that are not negative. -/
theorem fmod_natCast (a : Nat) {b : Nat} (hb : 0 < b) : fmod (a : K) (b : K) = ((a % b : Nat) : K) := by
  have hbK : (0 : K) < b := by exact_mod_cast hb
  have hdiv : ((a % b : Nat) : K) + b * ((a / b : Nat) : K) = a := by exact_mod_cast Nat.mod_add_div a b
  have hlt : ((a % b : Nat) : K) < b := by exact_mod_cast Nat.mod_lt a hb
  have hfloor : ⌊(a : K) / b⌋ = ((a / b : Nat) : Int) := by
    rw [Int.floor_eq_iff, Int.cast_natCast, le_div_iff₀ hbK, div_lt_iff₀ hbK]
    constructor <;> nlinarith [Nat.cast_nonneg (α := K) (a % b)]
  rw [fmod, truncate, if_pos (by positivity), hfloor, Int.cast_natCast]
  linarith

/-! ### Checked fields -/

omit [IsStrictOrderedRing K] in
theorem checkedFixedWidth_eq_ok {lo hi n : Int} {value : K} {field : String} {sequence : UInt32} :
    checkedFixedWidth lo hi value field sequence = .ok n ↔ (lo ≤ value ∧ value ≤ hi) ∧ n = truncate value := by
  unfold checkedFixedWidth
  split_ifs with h
  · have hno : ¬((lo : K) ≤ value ∧ value ≤ hi) := fun ⟨h1, h2⟩ => h.elim (not_lt.mpr h1) (not_lt.mpr h2)
    simp [hno]
  · rw [not_or, not_lt, not_lt] at h
    simp [h, eq_comm]

/-- A whole number that passes the check is shown as it is. -/
theorem checkedUInt16_eq_ok {value : K} (hvalue : ∃ n : Int, value = n) {field : String} {sequence : UInt32}
    {u : UInt16} : checkedUInt16 value field sequence = .ok u ↔ ((u.toNat : Int) : K) = value := by
  obtain ⟨n, rfl⟩ := hvalue
  rw [checkedUInt16, Int.cast_inj]
  have hmap {r : Except String Int} : (r.map fun n => UInt16.ofNat n.toNat) = .ok u ↔
      ∃ m, r = .ok m ∧ UInt16.ofNat m.toNat = u := by
    cases r <;> simp [Except.map]
  simp only [hmap, checkedFixedWidth_eq_ok, truncate_intCast]
  constructor
  · rintro ⟨m, ⟨⟨h1, h2⟩, hm⟩, rfl⟩
    subst hm
    have h1' : 0 ≤ m := by exact_mod_cast h1
    have h2' : m ≤ 65535 := by exact_mod_cast h2
    rw [UInt16.toNat_ofNat', Nat.mod_eq_of_lt (by omega)]
    omega
  · rintro rfl
    have hlt := u.toNat_lt
    refine ⟨_, ⟨⟨by exact_mod_cast Int.natCast_nonneg u.toNat, ?_⟩, rfl⟩, ?_⟩
    · exact_mod_cast (by omega : (u.toNat : Int) ≤ 65535)
    · rw [Int.toNat_natCast, UInt16.ofNat_toNat]

theorem checkedInt16_eq_ok {value : K} (hvalue : ∃ n : Int, value = n) {field : String} {sequence : UInt32}
    {i : Int16} : checkedInt16 value field sequence = .ok i ↔ (i.toInt : K) = value := by
  obtain ⟨n, rfl⟩ := hvalue
  rw [checkedInt16, Int.cast_inj]
  have hmap {r : Except String Int} : r.map Int16.ofInt = .ok i ↔ ∃ m, r = .ok m ∧ Int16.ofInt m = i := by
    cases r <;> simp [Except.map]
  simp only [hmap, checkedFixedWidth_eq_ok, truncate_intCast]
  constructor
  · rintro ⟨m, ⟨⟨h1, h2⟩, hm⟩, rfl⟩
    subst hm
    have h1' : -32768 ≤ m := by exact_mod_cast h1
    have h2' : m ≤ 32767 := by exact_mod_cast h2
    exact Int16.toInt_ofInt_of_le (by omega) (by omega)
  · rintro rfl
    refine ⟨_, ⟨⟨?_, ?_⟩, rfl⟩, Int16.ofInt_toInt i⟩
    · exact_mod_cast i.le_toInt
    · exact_mod_cast i.toInt_le

/-- The packet shows the curves. -/
structure Shows (c : Curves K) (t : Telemetry) : Prop where
  mode : t.mode = c.mode
  batteryMv : ((t.batteryMv.toNat : Int) : K) = c.batteryMv
  busCurrentMa : ((t.busCurrentMa.toNat : Int) : K) = c.busCurrentMa
  temperatureCentiC : (t.temperatureCentiC.toInt : K) = c.temperatureCentiC
  rollCentiDeg : (t.rollCentiDeg.toInt : K) = c.rollCentiDeg
  pitchCentiDeg : (t.pitchCentiDeg.toInt : K) = c.pitchCentiDeg
  yawCentiDeg : (t.yawCentiDeg.toInt : K) = c.yawCentiDeg

variable {sin cos : K → K} {sequence : UInt32} {timestampMs : UInt64} {scenario : Scenario}

/-- The heading is a whole number in a half-open turn, whatever the scenario. -/
theorem curves_yaw : (curves sin cos sequence scenario).yawCentiDeg =
    (((sequence.toNat * 725 + 18000 : Int) % 36000 - 18000 : Int) : K) := by
  have hfmod := fmod_natCast (K := K) (sequence.toNat * 725 + 18000) (b := 36000) (by decide)
  push_cast at hfmod
  have hcast : (((sequence.toNat * 725 + 18000 : Int) % 36000 : Int) : K) =
      ((sequence.toNat * 725 + 18000) % 36000 : Nat) := by
    rw [← Int.cast_natCast ((sequence.toNat * 725 + 18000) % 36000)]
    rfl
  simp only [curves, kYawStepCentiDeg, kHalfTurnCentiDeg, kFullTurnCentiDeg]
  rw [hfmod, Int.cast_sub, hcast, Int.cast_ofNat]

theorem makeScenarioTelemetry_eq_ok {t : Telemetry} : makeScenarioTelemetry sin cos sequence timestampMs scenario = .ok t ↔
    t.sequence = sequence ∧ t.timestampMs = timestampMs ∧ Shows (curves sin cos sequence scenario) t := by
  have hyaw : ∃ n : Int, (curves sin cos sequence scenario).yawCentiDeg = n := ⟨_, curves_yaw⟩
  simp only [makeScenarioTelemetry, except_bind_eq_ok]
  constructor
  · rintro ⟨u, hu, v, hv, x, hx, y, hy, z, hz, w, hw, h⟩
    cases h
    exact ⟨rfl, rfl, rfl, (checkedUInt16_eq_ok (exists_stdRound _)).mp hu, (checkedUInt16_eq_ok (exists_stdRound _)).mp hv,
      (checkedInt16_eq_ok (exists_stdRound _)).mp hx, (checkedInt16_eq_ok (exists_stdRound _)).mp hy,
      (checkedInt16_eq_ok (exists_stdRound _)).mp hz, (checkedInt16_eq_ok hyaw).mp hw⟩
  · rintro ⟨rfl, rfl, h⟩
    refine ⟨_, (checkedUInt16_eq_ok (exists_stdRound _)).mpr h.batteryMv,
      _, (checkedUInt16_eq_ok (exists_stdRound _)).mpr h.busCurrentMa,
      _, (checkedInt16_eq_ok (exists_stdRound _)).mpr h.temperatureCentiC,
      _, (checkedInt16_eq_ok (exists_stdRound _)).mpr h.rollCentiDeg,
      _, (checkedInt16_eq_ok (exists_stdRound _)).mpr h.pitchCentiDeg, _, (checkedInt16_eq_ok hyaw).mpr h.yawCentiDeg, ?_⟩
    rw [← h.mode]
    rfl

/-! ### The ranges of the curves -/

/-- Every field of the curves is a whole number within its range, the temperature moved up by a rise. -/
structure Curves.Within (c : Curves K) (rise : Int) : Prop where
  batteryMv : Whole 0 8100 c.batteryMv
  busCurrentMa : Whole 385 455 c.busCurrentMa
  temperatureCentiC : Whole (2220 + rise) (2580 + rise) c.temperatureCentiC
  rollCentiDeg : Whole (-450) 450 c.rollCentiDeg
  pitchCentiDeg : Whole (-320) 320 c.pitchCentiDeg
  yawCentiDeg : Whole (-18000) 17999 c.yawCentiDeg

/-- Only the thermal scenario heats up, by 0.72 °C for each packet. -/
def riseCentiC (sequence : UInt32) (scenario : Scenario) : Int := if scenario = .Thermal then 72 * sequence.toNat else 0

/-- An oscillation around a whole number. -/
theorem whole_oscillation (center amplitude : Int) {s : K} (h : |s| ≤ 1) (hpos : 0 ≤ amplitude) :
    Whole (center - amplitude) (center + amplitude) (stdRound (center + amplitude * s)) := by
  obtain ⟨hlo, hhi⟩ := abs_le.mp h
  have ha : (0 : K) ≤ amplitude := by exact_mod_cast hpos
  refine whole_stdRound ?_ ?_
  · push_cast
    nlinarith
  · push_cast
    nlinarith

theorem curves_within (hsin : ∀ x, |sin x| ≤ 1) (hcos : ∀ x, |cos x| ≤ 1) (sequence : UInt32) (scenario : Scenario) :
    (curves sin cos sequence scenario).Within (riseCentiC sequence scenario) := by
  have hs : (0 : K) ≤ (sequence.toNat : K) := Nat.cast_nonneg _
  constructor
  case batteryMv =>
    have hmax (battery : K) (h : battery ≤ 81 / 10) : Whole 0 8100 (stdRound (max 0 battery * 1000)) := by
      refine whole_stdRound ?_ ?_
      · have := le_max_left 0 battery
        push_cast
        linarith
      · have := max_le (by norm_num : (0 : K) ≤ 81 / 10) h
        push_cast
        linarith
    refine hmax _ ?_
    simp only [kNominalBatteryV, kNominalBatteryDrainPerPacketV, kPowerDrainPerPacketV]
    split_ifs <;> linarith
  case busCurrentMa => exact_mod_cast whole_oscillation 420 35 (hsin _) (by decide)
  case temperatureCentiC =>
    have hvalue (rise : Int) (s : K) : (2400 + rise : Int) + (180 : Int) * s =
        (24 + 18 / 10 * s + (rise : K) / 100) * 100 := by
      push_cast
      ring
    have hwhole (s : K) (h : |s| ≤ 1) (rise : Int) :
        Whole (2220 + rise) (2580 + rise) (stdRound ((24 + 18 / 10 * s + (rise : K) / 100) * 100)) := by
      rw [← hvalue]
      have := whole_oscillation (2400 + rise) 180 h (by decide)
      rwa [show 2400 + rise - 180 = 2220 + rise by omega, show 2400 + rise + 180 = 2580 + rise by omega] at this
    have hrise := hwhole (sin (sequence.toNat / 8)) (hsin _) (riseCentiC sequence scenario)
    simp only [curves, kNominalTemperatureC, kTemperatureOscillationC, kThermalRisePerPacketC, kCentiUnitsPerUnit,
      kScenarioPhaseDivisor]
    convert hrise using 3
    unfold riseCentiC
    split_ifs <;> push_cast <;> ring
  case rollCentiDeg =>
    have := whole_oscillation (K := K) 0 450 (hsin (sequence.toNat / 8 * (5 / 10))) (by decide)
    simpa [curves, kRollAmplitudeCentiDeg, kScenarioPhaseDivisor] using this
  case pitchCentiDeg =>
    have := whole_oscillation (K := K) 0 320 (hcos (sequence.toNat / 8 * (4 / 10))) (by decide)
    simpa [curves, kPitchAmplitudeCentiDeg, kScenarioPhaseDivisor] using this
  case yawCentiDeg => exact ⟨_, curves_yaw, by omega, by omega⟩

/-! ### Packets -/

omit [LinearOrder K] [FloorRing K] [IsStrictOrderedRing K] in
theorem exists_uint16 {lo hi : Int} {x : K} (h : Whole lo hi x) (hlo : 0 ≤ lo) (hhi : hi ≤ 65535) :
    ∃ u : UInt16, ((u.toNat : Int) : K) = x := by
  obtain ⟨n, rfl, h1, h2⟩ := h
  refine ⟨UInt16.ofNat n.toNat, ?_⟩
  rw [UInt16.toNat_ofNat', Nat.mod_eq_of_lt (by omega), Int.toNat_of_nonneg (by omega)]

omit [LinearOrder K] [FloorRing K] [IsStrictOrderedRing K] in
theorem exists_int16 {lo hi : Int} {x : K} (h : Whole lo hi x) (hlo : -32768 ≤ lo) (hhi : hi ≤ 32767) :
    ∃ i : Int16, (i.toInt : K) = x := by
  obtain ⟨n, rfl, h1, h2⟩ := h
  exact ⟨Int16.ofInt n, by rw [Int16.toInt_ofInt_of_le (by omega) (by omega)]⟩

/-- A packet is built as long as the temperature fits its field. -/
theorem makeScenarioTelemetry_ok (hsin : ∀ x, |sin x| ≤ 1) (hcos : ∀ x, |cos x| ≤ 1)
    (hrise : riseCentiC sequence scenario ≤ 30187) :
    ∃ t, makeScenarioTelemetry sin cos sequence timestampMs scenario = .ok t := by
  have h := curves_within hsin hcos sequence scenario
  have hpos : 0 ≤ riseCentiC sequence scenario := by
    unfold riseCentiC
    split_ifs <;> omega
  obtain ⟨b, hb⟩ := exists_uint16 h.batteryMv (by decide) (by decide)
  obtain ⟨c, hc⟩ := exists_uint16 h.busCurrentMa (by decide) (by decide)
  obtain ⟨x, hx⟩ := exists_int16 h.temperatureCentiC (by omega) (by omega)
  obtain ⟨r, hr⟩ := exists_int16 h.rollCentiDeg (by decide) (by decide)
  obtain ⟨p, hp⟩ := exists_int16 h.pitchCentiDeg (by decide) (by decide)
  obtain ⟨y, hy⟩ := exists_int16 h.yawCentiDeg (by decide) (by decide)
  exact ⟨⟨sequence, timestampMs, (curves sin cos sequence scenario).mode, b, c, x, r, p, y⟩,
    makeScenarioTelemetry_eq_ok.mpr ⟨rfl, rfl, rfl, hb, hc, hx, hr, hp, hy⟩⟩

/-- No packet is built once the temperature is too high at every phase. -/
theorem makeScenarioTelemetry_error (hsin : ∀ x, |sin x| ≤ 1) (hcos : ∀ x, |cos x| ≤ 1)
    (hrise : 30547 < riseCentiC sequence scenario) :
    ∃ e, makeScenarioTelemetry sin cos sequence timestampMs scenario = .error e := by
  cases h : makeScenarioTelemetry sin cos sequence timestampMs scenario with
  | error e => exact ⟨e, rfl⟩
  | ok t =>
    have hshows := (makeScenarioTelemetry_eq_ok.mp h).2.2.temperatureCentiC
    obtain ⟨n, hn, hlo, -⟩ := (curves_within hsin hcos sequence scenario).temperatureCentiC
    have heq : t.temperatureCentiC.toInt = n := by exact_mod_cast hshows.trans hn
    have hmax : t.temperatureCentiC.toInt ≤ 32767 := t.temperatureCentiC.toInt_le
    omega

omit [IsStrictOrderedRing K] in
/-- A field of a packet is in the range of its curve. -/
theorem Whole.of_shown {lo hi n : Int} {x : K} (h : Whole lo hi x) (hn : (n : K) = x) : lo ≤ n ∧ n ≤ hi := by
  obtain ⟨m, rfl, h1, h2⟩ := h
  obtain rfl : n = m := Int.cast_injective hn
  exact ⟨h1, h2⟩

/-! ### Modes -/

/-- Without the thermal rise only the battery leads to safe mode. -/
theorem mode_eq_safe (hsin : ∀ x, |sin x| ≤ 1) (h : scenario ≠ .Thermal) :
    (curves sin cos sequence scenario).mode = .Safe ↔
      (81 / 10 : K) - 25 / 10000 * sequence.toNat - (if scenario = .Power then 35 / 1000 * (sequence.toNat : K) else 0) ≤ 7 := by
  have hcold := (abs_le.mp (hsin ((sequence.toNat : K) / 8))).2
  have hnot : ¬(60 : K) ≤ 24 + 18 / 10 * sin (sequence.toNat / 8) := by
    rw [not_le]
    linarith
  simp only [curves, kNominalTemperatureC, kTemperatureOscillationC, kNominalBatteryV, kNominalBatteryDrainPerPacketV,
    kPowerDrainPerPacketV, kSafeTemperatureC, kSafeBatteryV, kScenarioPhaseDivisor, if_neg h, hnot, false_or]
  have hbattery : (if scenario = .Power then (81 / 10 : K) - 25 / 10000 * sequence.toNat - 35 / 1000 * sequence.toNat
      else 81 / 10 - 25 / 10000 * sequence.toNat) = 81 / 10 - 25 / 10000 * sequence.toNat -
        (if scenario = .Power then 35 / 1000 * (sequence.toNat : K) else 0) := by
    split_ifs
    · rfl
    · rw [sub_zero]
  have hmode {p q : Prop} [Decidable p] [Decidable q] :
      (if p then SpacecraftMode.Safe else if q then .Boot else .Nominal) = .Safe ↔ p := by
    split_ifs with hp <;> simp [hp]
  rw [hbattery]
  exact hmode

theorem mode_safe_mono (hsin : ∀ x, |sin x| ≤ 1) (h : scenario ≠ .Thermal) {later : UInt32}
    (hle : sequence ≤ later) (hsafe : (curves sin cos sequence scenario).mode = .Safe) :
    (curves sin cos later scenario).mode = .Safe := by
  have hcast : (sequence.toNat : K) ≤ later.toNat := by exact_mod_cast UInt32.le_iff_toNat_le.mp hle
  rw [mode_eq_safe hsin h] at hsafe ⊢
  split_ifs at hsafe ⊢ <;> linarith

omit [IsStrictOrderedRing K] in
theorem lt_of_mode_boot (h : (curves sin cos sequence scenario).mode = .Boot) : sequence < 3 := by
  have hmode {p q : Prop} [Decidable p] [Decidable q]
      (h : (if p then SpacecraftMode.Safe else if q then .Boot else .Nominal) = .Boot) : q := by
    split_ifs at h with _ hq
    exact hq
  exact hmode h

/-- Scenario packets show their curves: nominal and power packets always exist and stay in fixed ranges,
thermal packets exist up to sequence 419 and end at 425 at the latest; the heading turns by 7.25° for each
packet; safe mode is never left and the boot mode ends after three packets. -/
theorem makeScenarioTelemetry_fits (hsin : ∀ x, |sin x| ≤ 1) (hcos : ∀ x, |cos x| ≤ 1) :
    (∀ sequence timestampMs scenario, scenario ≠ .Thermal →
      ∃ t, makeScenarioTelemetry sin cos sequence timestampMs scenario = .ok t ∧
        t.batteryMv.toNat ≤ 8100 ∧ (385 ≤ t.busCurrentMa.toNat ∧ t.busCurrentMa.toNat ≤ 455) ∧
        (2220 ≤ t.temperatureCentiC.toInt ∧ t.temperatureCentiC.toInt ≤ 2580) ∧
        |t.rollCentiDeg.toInt| ≤ 450 ∧ |t.pitchCentiDeg.toInt| ≤ 320 ∧
        (-18000 ≤ t.yawCentiDeg.toInt ∧ t.yawCentiDeg.toInt ≤ 17999)) ∧
    (∀ sequence timestampMs,
      (sequence ≤ 419 → ∃ t, makeScenarioTelemetry sin cos sequence timestampMs .Thermal = .ok t) ∧
      (425 ≤ sequence → ∃ e, makeScenarioTelemetry sin cos sequence timestampMs .Thermal = .error e)) ∧
    (∀ sequence timestampMs scenario t, makeScenarioTelemetry sin cos sequence timestampMs scenario = .ok t →
      (t.sequence = sequence ∧ t.timestampMs = timestampMs ∧ Shows (curves sin cos sequence scenario) t) ∧
      t.yawCentiDeg.toInt ≡ 725 * sequence.toNat [ZMOD 36000]) ∧
    ∀ sequence timestampMs scenario t, scenario ≠ .Thermal →
      makeScenarioTelemetry sin cos sequence timestampMs scenario = .ok t →
      (t.mode = .Safe → ∀ later timestampMs' t', sequence ≤ later →
        makeScenarioTelemetry sin cos later timestampMs' scenario = .ok t' → t'.mode = .Safe) ∧
      (t.mode = .Boot → sequence < 3) := by
  refine ⟨fun sequence timestampMs scenario hs => ?_, fun sequence timestampMs => ⟨fun hle => ?_, fun hle => ?_⟩,
    fun sequence timestampMs scenario t ht => ?_, fun sequence timestampMs scenario t hs ht => ⟨fun hsafe => ?_, fun hboot => ?_⟩⟩
  · have hrise : riseCentiC sequence scenario = 0 := if_neg hs
    obtain ⟨t, ht⟩ : ∃ t, makeScenarioTelemetry sin cos sequence timestampMs scenario = .ok t :=
      makeScenarioTelemetry_ok hsin hcos (hrise.trans_le (by decide))
    have hshows := (makeScenarioTelemetry_eq_ok.mp ht).2.2
    have hwithin := curves_within hsin hcos sequence scenario
    rw [hrise] at hwithin
    have hb := hwithin.batteryMv.of_shown hshows.batteryMv
    have hc := hwithin.busCurrentMa.of_shown hshows.busCurrentMa
    have hx := hwithin.temperatureCentiC.of_shown hshows.temperatureCentiC
    exact ⟨t, ht, by omega, by omega, by omega, abs_le.mpr (hwithin.rollCentiDeg.of_shown hshows.rollCentiDeg),
      abs_le.mpr (hwithin.pitchCentiDeg.of_shown hshows.pitchCentiDeg), hwithin.yawCentiDeg.of_shown hshows.yawCentiDeg⟩
  · have hnat : sequence.toNat ≤ 419 := UInt32.le_iff_toNat_le.mp hle
    refine makeScenarioTelemetry_ok hsin hcos ?_
    rw [riseCentiC, if_pos rfl]
    omega
  · have hnat : 425 ≤ sequence.toNat := UInt32.le_iff_toNat_le.mp hle
    refine makeScenarioTelemetry_error hsin hcos ?_
    rw [riseCentiC, if_pos rfl]
    omega
  · have hok := makeScenarioTelemetry_eq_ok.mp ht
    refine ⟨hok, ?_⟩
    have hyaw : t.yawCentiDeg.toInt = (sequence.toNat * 725 + 18000 : Int) % 36000 - 18000 :=
      Int.cast_injective (hok.2.2.yawCentiDeg.trans curves_yaw)
    rw [hyaw, Int.ModEq]
    omega
  · intro later timestampMs' t' hle ht'
    have hmode := (makeScenarioTelemetry_eq_ok.mp ht).2.2.mode
    have hmode' := (makeScenarioTelemetry_eq_ok.mp ht').2.2.mode
    exact hmode'.trans (mode_safe_mono hsin hs hle (hmode.symm.trans hsafe))
  · have hmode := (makeScenarioTelemetry_eq_ok.mp ht).2.2.mode
    exact lt_of_mode_boot (hmode.symm.trans hboot)

/-- A wave that rests at its lowest value. -/
theorem makeScenarioTelemetry_fits_rational :
    (∃ t, makeScenarioTelemetry (fun _ => (-1 : ℚ)) (fun _ => 0) 400 0 .Thermal = .ok t) ∧
      ∃ e, makeScenarioTelemetry (fun _ => (-1 : ℚ)) (fun _ => 0) 425 0 .Thermal = .error e := by
  have hsin : ∀ _ : ℚ, |(-1 : ℚ)| ≤ 1 := by norm_num
  have hcos : ∀ _ : ℚ, |(0 : ℚ)| ≤ 1 := by norm_num
  have hfits := (makeScenarioTelemetry_fits hsin hcos).2.1
  exact ⟨(hfits 400 0).1 (by decide), (hfits 425 0).2 (by decide)⟩

end

end OrbitOps.Onboard
