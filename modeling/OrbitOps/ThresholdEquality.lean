import OrbitOps.Alarms
import OrbitOps.Py.Decimals

/-!
# Readings on a threshold

A policy file writes its thresholds as decimals and a packet carries hundredths of a degree and
millivolts, so the alarm engine has an exact integer counterpart. On an entry threshold and off the
clear boundaries the engine's doubles always decide as the integers do. On a clear boundary the rounded
difference of two thresholds can lie above the double of the boundary itself (or the rounded sum below
it), and then the engine clears an alarm that should stay active.
-/

namespace OrbitOps
open Py
open Py.Float64 (rounded)

/-- A finite double that a decimal `n / d` denotes; zero has two. -/
def IsLiteral (x : Float64) (n : Int) (d : Nat) : Prop := x.eq (Float64.ofFraction (n < 0) n.natAbs d) = true

theorem IsLiteral.toRat {x : Float64} {n : Int} {d : Nat} (h : IsLiteral x n d) (hd : d ≠ 0) :
    x.toRat = rounded (n / d) := by
  rw [IsLiteral, Float64.eq, Bool.and_eq_true, decide_eq_true_eq] at h
  rw [Float64.rounded, Float64.toRat_eq_iff, h.2, Float64.key_ofFraction_int n hd]

/-! ### Readings and literals -/

section
variable {x y : Float64} {n m r : Int} {d : Nat} (hd : 0 < d) (hd' : d ≤ 1000)

section
variable (hr : |r| ≤ 2 ^ 16) (hfin : (Float64.scaled r d).isFinite = true)
include hd hd' hr

theorem toRat_reading : (Float64.scaled r d).toRat = rounded (r / d) := by
  obtain ⟨hlow, hhigh⟩ := abs_le.mp hr
  exact Float64.toRat_scaled (by omega) hd.ne' (by omega)

include hfin

/-- A literal is ordered to every moderate reading as the decimals are. -/
theorem IsLiteral.le_scaled (h : IsLiteral x n d) (hx : x.isFinite = true) :
    x.le (Float64.scaled r d) = decide (n ≤ r) := by
  rw [Bool.eq_iff_iff, Float64.le_iff_toRat hx hfin, h.toRat hd.ne', toRat_reading hd hd' hr,
    Float64.rounded_div_le_iff hd hd' (hr.trans (by norm_num)), decide_eq_true_eq]

theorem IsLiteral.scaled_le (h : IsLiteral x n d) (hx : x.isFinite = true) :
    (Float64.scaled r d).le x = decide (r ≤ n) := by
  rw [Bool.eq_iff_iff, Float64.le_iff_toRat hfin hx, h.toRat hd.ne', toRat_reading hd hd' hr,
    Float64.le_rounded_div_iff hd hd' (hr.trans (by norm_num)), decide_eq_true_eq]

theorem IsLiteral.sub_le_scaled (h : IsLiteral x n d) (h' : IsLiteral y m d) (hx : x.isFinite = true)
    (hy : y.isFinite = true) (hxy : (x.sub y).isFinite = true) :
    (x.sub y).le (Float64.scaled r d) = true ↔ Float64.roundedSub d n m ≤ rounded (r / d) := by
  rw [Float64.le_iff_toRat hxy hfin, Float64.toRat_sub hx hy, h.toRat hd.ne', h'.toRat hd.ne', toRat_reading hd hd' hr]
  rfl

end

include hd hd' in
theorem IsLiteral.nonneg (h : IsLiteral x n d) (hx : ¬x.toRat < 0) : 0 ≤ n := by
  rw [h.toRat hd.ne'] at hx
  by_contra hneg
  have hlt := Float64.rounded_div_gt hd hd' (t := 0) (by norm_num) (not_le.mp hneg)
  rw [Int.cast_zero, zero_div, Float64.rounded_zero] at hlt
  exact hx hlt

theorem toRat_nonneg (hx : x.isFinite = true) (h : x.lt .zero = false) : ¬x.toRat < 0 := by
  rw [← Float64.toRat_zero, ← Float64.lt_iff_toRat hx Float64.isFinite_zero, h]
  exact Bool.false_ne_true

end

/-- The thresholds of a policy in hundredths of a degree and in millivolts. -/
structure ExactThresholds where
  warningCentiC : Int
  criticalCentiC : Int
  hysteresisCentiC : Int
  criticalMv : Int
  hysteresisMv : Int

namespace ExactThresholds
open AlarmEngine

/-- The policy's file writes these thresholds. -/
structure Writes (t : ExactThresholds) (policy : AlarmPolicy Float64) : Prop where
  warning : IsLiteral policy.temperature.warningC t.warningCentiC 100
  critical : IsLiteral policy.temperature.criticalC t.criticalCentiC 100
  hysteresis : IsLiteral policy.temperature.hysteresisC t.hysteresisCentiC 100
  batteryCritical : IsLiteral policy.battery.criticalV t.criticalMv 1000
  batteryHysteresis : IsLiteral policy.battery.hysteresisV t.hysteresisMv 1000

/-! ### In integers -/

/-- `_next_temperature_severity` in hundredths of a degree. -/
def nextSeverity (t : ExactThresholds) (severity : Option AlarmSeverity) (temperatureCentiC : Int) : Option AlarmSeverity :=
  match severity with
  | none =>
    if t.criticalCentiC ≤ temperatureCentiC then some .CRITICAL
    else if t.warningCentiC ≤ temperatureCentiC then some .WARNING
    else none
  | some .WARNING =>
    if t.criticalCentiC ≤ temperatureCentiC then some .CRITICAL
    else if temperatureCentiC < t.warningCentiC - t.hysteresisCentiC then none
    else some .WARNING
  | some .CRITICAL =>
    if t.criticalCentiC - t.hysteresisCentiC ≤ temperatureCentiC then some .CRITICAL
    else if t.warningCentiC - t.hysteresisCentiC ≤ temperatureCentiC then some .WARNING
    else none

/-- The battery comparison in millivolts. -/
def nextActive (t : ExactThresholds) (active : Bool) (batteryMv : Int) : Bool :=
  if active then batteryMv ≤ t.criticalMv + t.hysteresisMv else batteryMv ≤ t.criticalMv

def severityAfter (t : ExactThresholds) (packets : List DecodedPacket) : Option AlarmSeverity :=
  (packets.map fun p => p.temperatureCentiC).foldl t.nextSeverity none

def activeAfter (t : ExactThresholds) (packets : List DecodedPacket) : Bool :=
  (packets.map fun p => p.batteryMv).foldl t.nextActive false

theorem severityAfter_concat (t : ExactThresholds) (ps : List DecodedPacket) (p : DecodedPacket) :
    t.severityAfter (ps ++ [p]) = t.nextSeverity (t.severityAfter ps) p.temperatureCentiC := by
  rw [severityAfter, List.map_append, List.foldl_append]
  rfl

theorem activeAfter_concat (t : ExactThresholds) (ps : List DecodedPacket) (p : DecodedPacket) :
    t.activeAfter (ps ++ [p]) = t.nextActive (t.activeAfter ps) p.batteryMv := by
  rw [activeAfter, List.map_append, List.foldl_append]
  rfl

/-! ### The condition -/

/-- The double of the clear boundary `n - h` is not below the rounded difference of the doubles of `n` and `h`. -/
def KeepsClearC (n h : Int) : Prop := rounded (rounded (n / 100) - rounded (h / 100)) ≤ rounded ((n - h) / 100)

/-- The double of the clear boundary `n + h` is not above the rounded sum of the doubles of `n` and `h`. -/
def KeepsClearV (n h : Int) : Prop := rounded ((n + h) / 1000) ≤ rounded (rounded (n / 1000) + rounded (h / 1000))

instance (n h : Int) : Decidable (KeepsClearC n h) := inferInstanceAs (Decidable (_ ≤ _))
instance (n h : Int) : Decidable (KeepsClearV n h) := inferInstanceAs (Decidable (_ ≤ _))

/-- The clear boundaries that a packet can reach are kept. -/
structure KeepsBoundaries (t : ExactThresholds) : Prop where
  warning : t.warningCentiC ≤ 0x7FFF → -0x8000 ≤ t.warningCentiC - t.hysteresisCentiC →
    KeepsClearC t.warningCentiC t.hysteresisCentiC
  critical : t.criticalCentiC ≤ 0x7FFF → -0x8000 ≤ t.criticalCentiC - t.hysteresisCentiC →
    KeepsClearC t.criticalCentiC t.hysteresisCentiC
  battery : t.criticalMv + t.hysteresisMv ≤ 0xFFFF → KeepsClearV t.criticalMv t.hysteresisMv

section
variable {t : ExactThresholds} {policy : AlarmPolicy Float64}

/-! ### Temperature -/

namespace Writes

theorem hysteresis_nonneg (h : t.Writes policy) : 0 ≤ t.hysteresisCentiC :=
  h.hysteresis.nonneg (by norm_num) (by norm_num)
    (toRat_nonneg policy.temperature.finite.2.2 policy.temperature.hysteresis_nonneg)

theorem ordered (h : t.Writes policy) : t.warningCentiC < t.criticalCentiC := by
  have hreal : ¬policy.temperature.criticalC.toRat ≤ policy.temperature.warningC.toRat := by
    rw [← Float64.le_iff_toRat policy.temperature.finite.2.1 policy.temperature.finite.1]
    exact Bool.eq_false_iff.mp policy.temperature.ordered
  rw [h.critical.toRat (by norm_num), h.warning.toRat (by norm_num)] at hreal
  by_contra hle
  refine hreal (Float64.rounded_mono ?_)
  gcongr
  exact not_lt.mp hle

end Writes

/-- The severities that a packet can lead to. -/
def Reached (t : ExactThresholds) : Option AlarmSeverity → Prop
  | none => True
  | some .WARNING => t.warningCentiC ≤ 0x7FFF
  | some .CRITICAL => t.criticalCentiC ≤ 0x7FFF

theorem reached_nextSeverity (hord : t.warningCentiC < t.criticalCentiC) {severity : Option AlarmSeverity}
    (hs : t.Reached severity) {r : Int} (hr : r ≤ 0x7FFF) : t.Reached (t.nextSeverity severity r) := by
  rcases severity with _ | _ | _ <;> rw [nextSeverity] <;> dsimp only [Reached] at hs ⊢ <;> split_ifs <;> grind [Reached]

/-- A clear boundary whose double is kept decides as the integers do. -/
theorem Writes.clear_le (h : t.Writes policy) {x : Float64} {n : Int} (hx : IsLiteral x n 100) (hfin : x.isFinite = true)
    (hclear : (x.sub policy.temperature.hysteresisC).isFinite = true) (hn : n ≤ 0x7FFF)
    (hkeeps : -0x8000 ≤ n - t.hysteresisCentiC → KeepsClearC n t.hysteresisCentiC) {r : Int} (hr : -0x8000 ≤ r ∧ r ≤ 0x7FFF) :
    (x.sub policy.temperature.hysteresisC).le (Float64.scaled r 100) = decide (n - t.hysteresisCentiC ≤ r) := by
  have habs : |r| ≤ 2 ^ 16 := abs_le.mpr (by omega)
  have hreading : (Float64.scaled r 100).isFinite = true := Float64.isFinite_scaled_100 (by omega)
  have hsub := hx.sub_le_scaled (by norm_num) (by norm_num) habs hreading h.hysteresis hfin policy.temperature.finite.2.2 hclear
  rw [Bool.eq_iff_iff, decide_eq_true_eq, hsub]
  refine Float64.roundedSub_le_iff (by norm_num) (by norm_num) habs (by omega) h.hysteresis_nonneg fun heq => ?_
  have hexact := hkeeps (by omega)
  rw [heq, Float64.roundedSub]
  push_cast
  exact hexact

theorem Writes.keeps_of_le (h : t.Writes policy) {x : Float64} {n : Int} (hx : IsLiteral x n 100) (hfin : x.isFinite = true)
    (hclear : (x.sub policy.temperature.hysteresisC).isFinite = true)
    (hn : -0x8000 ≤ n - t.hysteresisCentiC ∧ n - t.hysteresisCentiC ≤ 0x7FFF)
    (hle : (x.sub policy.temperature.hysteresisC).le (Float64.scaled (n - t.hysteresisCentiC) 100) = true) :
    KeepsClearC n t.hysteresisCentiC := by
  have habs : |n - t.hysteresisCentiC| ≤ 2 ^ 16 := abs_le.mpr (by omega)
  have hreading := Float64.isFinite_scaled_100 (n := n - t.hysteresisCentiC) (by omega)
  have hsub := (hx.sub_le_scaled (by norm_num) (by norm_num) habs hreading h.hysteresis hfin
    policy.temperature.finite.2.2 hclear).mp hle
  rw [Float64.roundedSub] at hsub
  push_cast at hsub
  exact hsub

theorem lt_eq_not_le {x y : Float64} (hx : x.isFinite = true) (hy : y.isFinite = true) : x.lt y = !y.le x := by
  rw [Bool.eq_iff_iff, Float64.lt_iff_toRat hx hy, Bool.not_eq_true', ← Bool.not_eq_true, Float64.le_iff_toRat hy hx, not_le]

theorem le_of_lt_eq_false {x y : Float64} (hx : x.isFinite = true) (hy : y.isFinite = true) (h : x.lt y = false) :
    y.le x = true := by
  rw [lt_eq_not_le hx hy] at h
  simpa using h

theorem nextTemperatureSeverity_eq (h : t.Writes policy) (hkeeps : t.KeepsBoundaries) {severity : Option AlarmSeverity}
    (hs : t.Reached severity) {r : Int} (hr : -0x8000 ≤ r ∧ r ≤ 0x7FFF) :
    nextTemperatureSeverity policy.temperature severity (Float64.scaled r 100) = t.nextSeverity severity r := by
  obtain ⟨hwfin, hcfin, -⟩ := policy.temperature.finite
  obtain ⟨hwclear, hcclear⟩ := policy.temperature.clear_finite
  have habs : |r| ≤ 2 ^ 16 := abs_le.mpr (by omega)
  have hreading : (Float64.scaled r 100).isFinite = true := Float64.isFinite_scaled_100 (by omega)
  have hcritical : FloatLike.le policy.temperature.criticalC (Float64.scaled r 100) = decide (t.criticalCentiC ≤ r) :=
    h.critical.le_scaled (by norm_num) (by norm_num) habs hreading hcfin
  have hwarning : FloatLike.le policy.temperature.warningC (Float64.scaled r 100) = decide (t.warningCentiC ≤ r) :=
    h.warning.le_scaled (by norm_num) (by norm_num) habs hreading hwfin
  have hwarningClear (hw : t.warningCentiC ≤ 0x7FFF) :
      FloatLike.le (FloatLike.sub policy.temperature.warningC policy.temperature.hysteresisC) (Float64.scaled r 100) =
        decide (t.warningCentiC - t.hysteresisCentiC ≤ r) :=
    h.clear_le h.warning hwfin hwclear hw (hkeeps.warning hw) hr
  have hcriticalClear (hc : t.criticalCentiC ≤ 0x7FFF) :
      FloatLike.le (FloatLike.sub policy.temperature.criticalC policy.temperature.hysteresisC) (Float64.scaled r 100) =
        decide (t.criticalCentiC - t.hysteresisCentiC ≤ r) :=
    h.clear_le h.critical hcfin hcclear hc (hkeeps.critical hc) hr
  have hbelow : FloatLike.lt (Float64.scaled r 100)
      (FloatLike.sub policy.temperature.warningC policy.temperature.hysteresisC) =
        !FloatLike.le (FloatLike.sub policy.temperature.warningC policy.temperature.hysteresisC) (Float64.scaled r 100) :=
    lt_eq_not_le hreading hwclear
  rcases severity with _ | _ | _
  · rw [nextTemperatureSeverity, nextSeverity]
    simp only [hcritical, hwarning, decide_eq_true_eq]
  · have hw : t.warningCentiC ≤ 0x7FFF := hs
    rw [nextTemperatureSeverity, nextSeverity]
    simp only [hcritical, hbelow, hwarningClear hw, decide_eq_true_eq, Bool.not_eq_true', decide_eq_false_iff_not, not_le]
  · have hc : t.criticalCentiC ≤ 0x7FFF := hs
    have hw : t.warningCentiC ≤ 0x7FFF := h.ordered.le.trans hc
    rw [nextTemperatureSeverity, nextSeverity]
    simp only [hcriticalClear hc, hwarningClear hw, decide_eq_true_eq]

/-- A warning that stays was not below its clear boundary. -/
theorem lt_of_stays {x : Float64} (h : nextTemperatureSeverity policy.temperature (some .WARNING) x = some .WARNING) :
    FloatLike.lt x (FloatLike.sub policy.temperature.warningC policy.temperature.hysteresisC) = false := by
  rw [nextTemperatureSeverity] at h
  by_cases hcritical : FloatLike.le policy.temperature.criticalC x = true
  · rw [if_pos hcritical] at h
    exact absurd h (by simp)
  · rw [if_neg hcritical] at h
    rw [← Bool.not_eq_true]
    intro hbelow
    rw [if_pos hbelow] at h
    exact absurd h (by simp)

theorem le_of_stays {x : Float64} (h : nextTemperatureSeverity policy.temperature (some .CRITICAL) x = some .CRITICAL) :
    FloatLike.le (FloatLike.sub policy.temperature.criticalC policy.temperature.hysteresisC) x = true := by
  by_contra hbelow
  rw [nextTemperatureSeverity, if_neg hbelow] at h
  split_ifs at h
  exact absurd h (by simp)

/-! ### Battery -/

theorem Writes.batteryHysteresis_nonneg (h : t.Writes policy) : 0 ≤ t.hysteresisMv :=
  h.batteryHysteresis.nonneg (by norm_num) (by norm_num)
    (toRat_nonneg policy.battery.finite.2 policy.battery.hysteresis_nonneg)

theorem Writes.critical_nonneg (h : t.Writes policy) : 0 ≤ t.criticalMv := by
  refine h.batteryCritical.nonneg (by norm_num) (by norm_num) fun hneg => ?_
  have hle : policy.battery.criticalV.le .zero = true := by
    rw [Float64.le_iff_toRat policy.battery.finite.1 Float64.isFinite_zero, Float64.toRat_zero]
    exact hneg.le
  exact Bool.eq_false_iff.mp policy.battery.critical_pos hle

theorem Writes.scaled_le_clear (h : t.Writes policy) {r : Int} (hr : 0 ≤ r ∧ r ≤ 0xFFFF) :
    (Float64.scaled r 1000).le (policy.battery.criticalV.add policy.battery.hysteresisV) = true ↔
      rounded (r / 1000) ≤
        rounded (rounded (t.criticalMv / 1000) + rounded (t.hysteresisMv / 1000)) := by
  have habs : |r| ≤ 2 ^ 16 := abs_le.mpr (by omega)
  obtain ⟨hcfin, hhfin⟩ := policy.battery.finite
  have hclear : (policy.battery.criticalV.add policy.battery.hysteresisV).isFinite = true := policy.battery.clear_finite
  rw [Float64.le_iff_toRat (Float64.isFinite_scaled_1000 (by omega)) hclear, Float64.toRat_add hcfin hhfin, h.batteryCritical.toRat (by norm_num), h.batteryHysteresis.toRat (by norm_num),
    toRat_reading (by norm_num) (by norm_num) habs]
  rfl

theorem nextBatteryActive_eq (h : t.Writes policy) (hkeeps : t.KeepsBoundaries) (active : Bool) {r : Int}
    (hr : 0 ≤ r ∧ r ≤ 0xFFFF) :
    nextBatteryActive policy.battery active (Float64.scaled r 1000) = t.nextActive active r := by
  have habs : |r| ≤ 2 ^ 16 := abs_le.mpr (by omega)
  have hreading : (Float64.scaled r 1000).isFinite = true := Float64.isFinite_scaled_1000 (by omega)
  have hpos := h.critical_nonneg
  have hcritical : FloatLike.le (Float64.scaled r 1000) policy.battery.criticalV = decide (r ≤ t.criticalMv) :=
    h.batteryCritical.scaled_le (by norm_num) (by norm_num) habs hreading policy.battery.finite.1
  have hclear : FloatLike.le (Float64.scaled r 1000) (FloatLike.add policy.battery.criticalV policy.battery.hysteresisV) =
      decide (r ≤ t.criticalMv + t.hysteresisMv) := by
    rw [Bool.eq_iff_iff, decide_eq_true_eq]
    refine (h.scaled_le_clear hr).trans ?_
    refine Float64.le_roundedAdd_iff (d := 1000) (by norm_num) (by norm_num) habs (by omega) h.batteryHysteresis_nonneg
      fun heq => ?_
    have hexact := hkeeps.battery (by omega)
    rw [heq]
    push_cast
    exact hexact
  rw [nextBatteryActive, nextActive, hcritical, hclear]

/-! ### Streams -/

/-- A packet that `decode_packet` returns. -/
def Decoded (p : DecodedPacket) : Prop := ∃ data, decodePacket data = .ok p

theorem severityAfter_eq (h : t.Writes policy) (hkeeps : t.KeepsBoundaries) {ps : List DecodedPacket}
    (hps : ∀ p ∈ ps, Decoded p) : (after policy ps).temperatureSeverity = t.severityAfter ps := by
  rw [temperatureSeverity_after, severityAfter, List.foldl_map, List.foldl_map]
  have hinit : (none : Option AlarmSeverity) = none ∧ t.Reached none := ⟨rfl, trivial⟩
  refine (List.foldl_rel (r := fun severity severity' => severity = severity' ∧ t.Reached severity') hinit ?_).1
  rintro p hp severity _ ⟨rfl, hs⟩
  obtain ⟨data, hdata⟩ := hps p hp
  have hrange : -0x8000 ≤ p.temperatureCentiC ∧ p.temperatureCentiC ≤ 0x7FFF := (decodePacket_inRange hdata).temperatureCentiC
  exact ⟨nextTemperatureSeverity_eq h hkeeps hs hrange, reached_nextSeverity h.ordered hs hrange.2⟩

theorem activeAfter_eq (h : t.Writes policy) (hkeeps : t.KeepsBoundaries) {ps : List DecodedPacket}
    (hps : ∀ p ∈ ps, Decoded p) : (after policy ps).batteryActive = t.activeAfter ps := by
  rw [batteryActive_after, activeAfter, List.foldl_map, List.foldl_map]
  refine List.foldl_rel (r := fun active active' => active = active') rfl ?_
  rintro p hp active _ rfl
  obtain ⟨data, hdata⟩ := hps p hp
  exact nextBatteryActive_eq h hkeeps active (decodePacket_inRange hdata).batteryMv

/-- Every reading is in some packet. -/
theorem exists_decoded (temperatureCentiC batteryMv : Int) (htemp : -0x8000 ≤ temperatureCentiC ∧ temperatureCentiC ≤ 0x7FFF)
    (hbatt : 0 ≤ batteryMv ∧ batteryMv ≤ 0xFFFF) :
    ∃ p, Decoded p ∧ p.temperatureCentiC = temperatureCentiC ∧ p.batteryMv = batteryMv := by
  have hnominal : nominalPacket.InRange := validatePacket_eq_ok.mp (by decide)
  have hrange : ({ nominalPacket with temperatureCentiC, batteryMv } : TelemetryPacket Int).InRange :=
    { hnominal with temperatureCentiC := htemp, batteryMv := hbatt }
  obtain ⟨p, hp, hnumbered⟩ := decodePacket_encoding hrange
  refine ⟨p, ⟨_, hp⟩, ?_, ?_⟩
  · exact congrArg TelemetryPacket.temperatureCentiC hnumbered
  · exact congrArg TelemetryPacket.batteryMv hnumbered

/-- The engine decides as the integers do. -/
def Agrees (t : ExactThresholds) (policy : AlarmPolicy Float64) (ps : List DecodedPacket) : Prop :=
  (after policy ps).temperatureSeverity = t.severityAfter ps ∧ (after policy ps).batteryActive = t.activeAfter ps

section
variable (hall : ∀ ps : List DecodedPacket, (∀ p ∈ ps, Decoded p) → t.Agrees policy ps)
include hall

/-- Agreement on two streams is agreement on the step between them. -/
theorem agrees_step {ps : List DecodedPacket} {q : DecodedPacket} (hps : ∀ p ∈ ps, Decoded p) (hq : Decoded q) :
    nextTemperatureSeverity policy.temperature (t.severityAfter ps) (Float64.scaled q.temperatureCentiC 100) =
        t.nextSeverity (t.severityAfter ps) q.temperatureCentiC ∧
      nextBatteryActive policy.battery (t.activeAfter ps) (Float64.scaled q.batteryMv 1000) =
        t.nextActive (t.activeAfter ps) q.batteryMv := by
  obtain ⟨htemp, hbatt⟩ := hall ps hps
  have hboth : ∀ p ∈ ps ++ [q], Decoded p := by
    intro p hp
    rcases List.mem_append.mp hp with hp | hp
    · exact hps p hp
    · rw [List.mem_singleton.mp hp]
      exact hq
  obtain ⟨htemp', hbatt'⟩ := hall (ps ++ [q]) hboth
  rw [after_concat, advance_eq, policy_after, htemp, severityAfter_concat] at htemp'
  rw [after_concat, advance_eq, policy_after, hbatt, activeAfter_concat] at hbatt'
  exact ⟨htemp', hbatt'⟩

/-- A stream that goes from the warning threshold to its clear boundary. -/
theorem agrees_warning (h : t.Writes policy) (hw : t.warningCentiC ≤ 0x7FFF)
    (hlow : -0x8000 ≤ t.warningCentiC - t.hysteresisCentiC) :
    KeepsClearC t.warningCentiC t.hysteresisCentiC := by
  have hhyst := h.hysteresis_nonneg
  have hord := h.ordered
  have hclear := policy.temperature.clear_finite.1
  obtain ⟨p, hp, hptemp, -⟩ := exists_decoded t.warningCentiC 0 (by omega) ⟨le_rfl, by norm_num⟩
  obtain ⟨q, hq, hqtemp, -⟩ := exists_decoded (t.warningCentiC - t.hysteresisCentiC) 0 (by omega)
    ⟨le_rfl, by norm_num⟩
  have hbefore : t.severityAfter [p] = some .WARNING := by
    show t.nextSeverity none p.temperatureCentiC = _
    rw [hptemp, nextSeverity, if_neg (by omega), if_pos le_rfl]
  have hafter : t.nextSeverity (some .WARNING) q.temperatureCentiC = some .WARNING := by
    rw [hqtemp, nextSeverity, if_neg (by omega), if_neg (lt_irrefl _)]
  have hstep := (agrees_step hall (List.forall_mem_singleton.mpr hp) hq).1
  rw [hbefore, hafter, hqtemp] at hstep
  have hreading := Float64.isFinite_scaled_100 (n := t.warningCentiC - t.hysteresisCentiC) (by omega)
  have hle := le_of_lt_eq_false hreading hclear (lt_of_stays hstep)
  exact h.keeps_of_le h.warning policy.temperature.finite.1 hclear ⟨hlow, by omega⟩ hle

theorem agrees_critical (h : t.Writes policy) (hc : t.criticalCentiC ≤ 0x7FFF)
    (hlow : -0x8000 ≤ t.criticalCentiC - t.hysteresisCentiC) :
    KeepsClearC t.criticalCentiC t.hysteresisCentiC := by
  have hhyst := h.hysteresis_nonneg
  obtain ⟨p, hp, hptemp, -⟩ := exists_decoded t.criticalCentiC 0 (by omega) ⟨le_rfl, by norm_num⟩
  obtain ⟨q, hq, hqtemp, -⟩ := exists_decoded (t.criticalCentiC - t.hysteresisCentiC) 0 (by omega)
    ⟨le_rfl, by norm_num⟩
  have hbefore : t.severityAfter [p] = some .CRITICAL := by
    show t.nextSeverity none p.temperatureCentiC = _
    rw [hptemp, nextSeverity, if_pos le_rfl]
  have hafter : t.nextSeverity (some .CRITICAL) q.temperatureCentiC = some .CRITICAL := by
    rw [hqtemp, nextSeverity, if_pos le_rfl]
  have hstep := (agrees_step hall (List.forall_mem_singleton.mpr hp) hq).1
  rw [hbefore, hafter, hqtemp] at hstep
  exact h.keeps_of_le h.critical policy.temperature.finite.2.1 policy.temperature.clear_finite.2 ⟨hlow, by omega⟩
    (le_of_stays hstep)

theorem agrees_battery (h : t.Writes policy) (hhigh : t.criticalMv + t.hysteresisMv ≤ 0xFFFF) :
    KeepsClearV t.criticalMv t.hysteresisMv := by
  have hcrit := h.critical_nonneg
  have hhyst := h.batteryHysteresis_nonneg
  obtain ⟨p, hp, -, hpbatt⟩ := exists_decoded 0 t.criticalMv ⟨by norm_num, by norm_num⟩ (by omega)
  obtain ⟨q, hq, -, hqbatt⟩ := exists_decoded 0 (t.criticalMv + t.hysteresisMv) ⟨by norm_num, by norm_num⟩ (by omega)
  have hbefore : t.activeAfter [p] = true := by
    show t.nextActive false p.batteryMv = true
    rw [hpbatt, nextActive]
    simp
  have hafter : t.nextActive true q.batteryMv = true := by
    rw [hqbatt, nextActive]
    simp
  have hstep := (agrees_step hall (List.forall_mem_singleton.mpr hp) hq).2
  rw [hbefore, hafter, hqbatt] at hstep
  have hkept := (h.scaled_le_clear ⟨by omega, hhigh⟩).mp hstep
  push_cast at hkept
  exact hkept

end

/-- The temperature and battery decisions of a policy are the exact ones on every stream exactly when the policy's
clear boundaries are kept. -/
theorem agrees_iff (h : t.Writes policy) :
    (∀ ps : List DecodedPacket, (∀ p ∈ ps, Decoded p) → t.Agrees policy ps) ↔ t.KeepsBoundaries := by
  constructor
  · intro hall
    exact ⟨agrees_warning hall h, agrees_critical hall h, agrees_battery hall h⟩
  · intro hkeeps ps hps
    exact ⟨severityAfter_eq h hkeeps hps, activeAfter_eq h hkeeps hps⟩

end

/-- A packet with these readings. -/
def packetAt (temperatureCentiC batteryMv : Int) : DecodedPacket where
  sequence := 7
  timestampMs := 123456
  mode := .NOMINAL
  batteryMv := batteryMv
  busCurrentMa := 420
  temperatureCentiC := temperatureCentiC
  rollCentiDeg := -120
  pitchCentiDeg := 230
  yawCentiDeg := 340

/-- 40.3 °C and 55.9 °C with a hysteresis of 0.2 °C, and 6.3 V with one of 0.2 V. -/
def keptThresholds : ExactThresholds := ⟨4030, 5590, 20, 6300, 200⟩

def keptPolicy : AlarmPolicy Float64 where
  name := "kept"
  description := some "Thresholds whose clear boundaries are kept."
  temperature := ⟨.ofFraction false 4030 100, .ofFraction false 5590 100, .ofFraction false 2 10, by decide +kernel,
    by decide +kernel, by decide +kernel, by decide +kernel, by decide +kernel⟩
  battery := ⟨.ofFraction false 63 10, .ofFraction false 2 10, by decide +kernel, by decide +kernel, by decide +kernel,
    by decide +kernel⟩
  mode := ⟨true⟩
  sequence := ⟨true⟩
  name_ok := by decide
  description_ok := by decide

/-- The boundaries of this policy are kept: on them, at 40.10 °C and at 6.500 V, its alarms stay. -/
theorem agrees_iff_kept : keptThresholds.KeepsBoundaries ∧
    (∀ ps : List DecodedPacket, (∀ p ∈ ps, Decoded p) → keptThresholds.Agrees keptPolicy ps) ∧
    (after keptPolicy [packetAt 4030 6300, packetAt 4010 6500]).temperatureSeverity = some .WARNING ∧
    (after keptPolicy [packetAt 4030 6300, packetAt 4010 6500]).batteryActive = true := by
  have hwrites : keptThresholds.Writes keptPolicy := by
    constructor <;> unfold IsLiteral <;> decide +kernel
  have hkeeps : keptThresholds.KeepsBoundaries := by
    constructor <;> decide +kernel
  exact ⟨hkeeps, (agrees_iff hwrites).mpr hkeeps, by decide +kernel, by decide +kernel⟩

/-- A policy in tenths: 30.1 °C with a hysteresis of 0.2 °C, and 6.1 V with one of 0.1 V. -/
def tenthsThresholds : ExactThresholds := ⟨3010, 6000, 20, 6100, 100⟩

def tenthsPolicy : AlarmPolicy Float64 where
  name := "tenths"
  description := some "Thresholds in tenths of a degree and of a volt."
  temperature := ⟨.ofFraction false 3010 100, .ofFraction false 60 1, .ofFraction false 2 10, by decide +kernel,
    by decide +kernel, by decide +kernel, by decide +kernel, by decide +kernel⟩
  battery := ⟨.ofFraction false 61 10, .ofFraction false 1 10, by decide +kernel, by decide +kernel, by decide +kernel,
    by decide +kernel⟩
  mode := ⟨true⟩
  sequence := ⟨true⟩
  name_ok := by decide
  description_ok := by decide

/-- At 29.90 °C and at 6.200 V, on its clear boundaries, this policy clears both alarms. -/
theorem tenthsPolicy_clears_on_boundary :
    tenthsThresholds.Writes tenthsPolicy ∧
    (∀ p ∈ [packetAt 3010 6100, packetAt 2990 6200], Decoded p) ∧
    (after tenthsPolicy [packetAt 3010 6100, packetAt 2990 6200]).temperatureSeverity = none ∧
    tenthsThresholds.severityAfter [packetAt 3010 6100, packetAt 2990 6200] = some .WARNING ∧
    (after tenthsPolicy [packetAt 3010 6100, packetAt 2990 6200]).batteryActive = false ∧
    tenthsThresholds.activeAfter [packetAt 3010 6100, packetAt 2990 6200] = true := by
  refine ⟨?_, ?_, by decide +kernel, by decide +kernel, by decide +kernel, by decide +kernel⟩
  · constructor <;> unfold IsLiteral <;> decide +kernel
  · intro p hp
    have hdecode : decodePacket (encoding (packetAt 3010 6100).numbered) = .ok (packetAt 3010 6100) ∧
        decodePacket (encoding (packetAt 2990 6200).numbered) = .ok (packetAt 2990 6200) := by decide +kernel
    rcases List.mem_cons.mp hp with rfl | hp
    · exact ⟨_, hdecode.1⟩
    · rw [List.mem_singleton.mp hp]
      exact ⟨_, hdecode.2⟩

end ExactThresholds

end OrbitOps
