import OrbitOps.Alarms
import OrbitOps.Link.Impairments
import OrbitOps.Py.JsonText
import OrbitOps.Py.Rounding

/-!
# Fingerprints

A fingerprint is the digest of a canonical text of the settings that affect behaviour. The text
determines every one of these settings, and the engines read nothing else, so equal texts mean equal
runs. Conversely settings that compare equal have one text, unless a `0.0` stands against a `-0.0` or
an integer is too long to be written at all.
-/

namespace OrbitOps
open Py

/-! ### Integers that are too long to write -/

/-- `json.dumps` of a document that was not read from a text and may hold any integer. -/
def dumpsLimited (document : Json) : Result String :=
  if document.Writable then .ok document.dumps
  else .error (valueError ("Exceeds the limit (4300 digits) for integer string conversion; " ++
    "use sys.set_int_max_str_digits() to increase the limit"))

theorem dumpsLimited_eq_ok {document : Json} {text : String} :
    dumpsLimited document = .ok text ↔ document.Writable ∧ document.dumps = text := by
  rw [dumpsLimited]
  split
  · next h => rw [Except.ok.injEq, and_iff_right h]
  · next h => simp only [reduceCtorEq, h, false_and]

/-! ### Link configurations -/

namespace Link

def EFFECTIVE_CONFIG_SCHEMA_VERSION : Nat := 1

def linkItems (config : LinkConfig) : List (String × Json) := [
  ("seed", .int config.seed),
  ("loss_rate", .str config.lossRate.value.hex),
  ("duplicate_rate", .str config.duplicateRate.value.hex),
  ("corrupt_rate", .str config.corruptRate.value.hex),
  ("latency_ms", .int config.latencyMs),
  ("jitter_ms", .int config.jitterMs),
  ("reorder_window", .int config.reorderWindow)]

/-- The items of the document. -/
def effectiveConfigItems (config : LinkConfig) : List (String × Json) := [
  ("schema_version", .int EFFECTIVE_CONFIG_SCHEMA_VERSION),
  ("link", .obj (linkItems config))]

def canonicalEffectiveConfig (config : LinkConfig) : Result String := dumpsLimited (.obj (effectiveConfigItems config))

def configurationFingerprint (config : LinkConfig) : Result String := do
  let canonical ← canonicalEffectiveConfig config
  return "sha256:" ++ hexOfBytes (Sha256.digest (asciiBytes canonical))

/-- Both delays are short enough to be written. -/
structure Written (c : LinkConfig) : Prop where
  latencyMs : c.latencyMs < strLimit
  jitterMs : c.jitterMs < strLimit

/-- Only the delays can be too long. -/
theorem written_iff {c : LinkConfig} :
    (Json.obj (effectiveConfigItems c)).Writable ↔ Written c := by
  have hintegers : (Json.obj (effectiveConfigItems c)).integers =
      [1, (c.seed : Int), (c.latencyMs : Int), (c.jitterMs : Int), (c.reorderWindow : Int)] := by
    simp [Json.integers, Json.integersItems, effectiveConfigItems, linkItems, EFFECTIVE_CONFIG_SCHEMA_VERSION]
  have hone : 1 < strLimit := lt_strLimit (by decide)
  have hseed : c.seed < strLimit := lt_strLimit (Nat.lt_of_le_of_lt c.seed_le (by decide))
  have hwindow : c.reorderWindow < strLimit := lt_strLimit (Nat.lt_of_le_of_lt c.reorderWindow_le (by decide))
  rw [Json.Writable, hintegers]
  simp only [List.forall_mem_cons, List.not_mem_nil, Int.natAbs_one, Int.natAbs_natCast, hone, hseed, hwindow, true_and]
  exact ⟨fun h => ⟨h.1, h.2.1⟩, fun h => ⟨h.latencyMs, h.jitterMs, fun _ hn => hn.elim⟩⟩

/-- The same settings, the rates as doubles. -/
structure SameSettings (c c' : LinkConfig) : Prop where
  seed : c.seed = c'.seed
  lossRate : c.lossRate.value = c'.lossRate.value
  duplicateRate : c.duplicateRate.value = c'.duplicateRate.value
  corruptRate : c.corruptRate.value = c'.corruptRate.value
  latencyMs : c.latencyMs = c'.latencyMs
  jitterMs : c.jitterMs = c'.jitterMs
  reorderWindow : c.reorderWindow = c'.reorderWindow

theorem floatFree_linkItems (c : LinkConfig) : (Json.obj (linkItems c)).FloatFree := by
  refine .obj fun kv hkv => ?_
  simp only [linkItems, List.mem_cons, List.not_mem_nil, or_false] at hkv
  rcases hkv with rfl | rfl | rfl | rfl | rfl | rfl | rfl <;> constructor

theorem floatFree_effectiveConfigItems (c : LinkConfig) : (Json.obj (effectiveConfigItems c)).FloatFree := by
  refine .obj fun kv hkv => ?_
  simp only [effectiveConfigItems, List.mem_cons, List.not_mem_nil, or_false] at hkv
  rcases hkv with rfl | rfl
  · exact .int _
  · exact floatFree_linkItems c

/-- The document says exactly what the settings are. -/
theorem dumps_effectiveConfigItems_eq_iff {c c' : LinkConfig} :
    (Json.obj (effectiveConfigItems c)).dumps = (Json.obj (effectiveConfigItems c')).dumps ↔ SameSettings c c' := by
  constructor
  · intro h
    have hsorted := Json.sortKeys_eq_of_dumps (floatFree_effectiveConfigItems c) (floatFree_effectiveConfigItems c') h
    have hdocument := Json.values_eq_of_sortKeys ["schema_version", "link"] rfl rfl (by decide) hsorted
    have hlink : (Json.obj (linkItems c)).sortKeys = (Json.obj (linkItems c')).sortKeys :=
      (List.cons.inj (List.cons.inj hdocument).2).1
    have hvalues := Json.values_eq_of_sortKeys
      ["seed", "loss_rate", "duplicate_rate", "corrupt_rate", "latency_ms", "jitter_ms", "reorder_window"] rfl rfl
      (by decide) hlink
    simp only [linkItems, List.map_cons, List.map_nil, Json.sortKeys, List.cons.injEq, Json.int.injEq, Json.str.injEq,
      Nat.cast_inj, and_true] at hvalues
    obtain ⟨hseed, hloss, hduplicate, hcorrupt, hlatency, hjitter, hwindow⟩ := hvalues
    exact {
      seed := hseed
      lossRate := Float64.hex_injective c.lossRate.finite c'.lossRate.finite hloss
      duplicateRate := Float64.hex_injective c.duplicateRate.finite c'.duplicateRate.finite hduplicate
      corruptRate := Float64.hex_injective c.corruptRate.finite c'.corruptRate.finite hcorrupt
      latencyMs := hlatency
      jitterMs := hjitter
      reorderWindow := hwindow }
  · intro h
    have hlink : linkItems c = linkItems c' := by
      rw [linkItems, linkItems, h.seed, h.lossRate, h.duplicateRate, h.corruptRate, h.latencyMs, h.jitterMs,
        h.reorderWindow]
    rw [effectiveConfigItems, effectiveConfigItems, hlink]

theorem canonicalEffectiveConfig_eq_ok {c : LinkConfig} {text : String} :
    canonicalEffectiveConfig c = .ok text ↔ Written c ∧ (Json.obj (effectiveConfigItems c)).dumps = text := by
  rw [canonicalEffectiveConfig, dumpsLimited_eq_ok, written_iff]

/-- Two configurations have one text when they have a text and the same settings. -/
theorem one_text_iff {c c' : LinkConfig} :
    (∃ text, canonicalEffectiveConfig c = .ok text ∧ canonicalEffectiveConfig c' = .ok text) ↔
      SameSettings c c' ∧ Written c := by
  simp only [canonicalEffectiveConfig_eq_ok]
  constructor
  · rintro ⟨text, ⟨hw, htext⟩, -, htext'⟩
    exact ⟨dumps_effectiveConfigItems_eq_iff.mp (htext.trans htext'.symm), hw⟩
  · rintro ⟨hs, hw⟩
    have hw' : Written c' := ⟨hs.latencyMs ▸ hw.latencyMs, hs.jitterMs ▸ hw.jitterMs⟩
    exact ⟨_, ⟨hw, rfl⟩, hw', (dumps_effectiveConfigItems_eq_iff.mpr hs).symm⟩

/-! ### Equal settings, equal outcomes -/

namespace ImpairmentEngine

/-- Two engines that will do the same. -/
structure SameEngine (e e' : ImpairmentEngine) : Prop where
  settings : SameSettings e.config e'.config
  rng : e.rng = e'.rng
  packetIndex : e.packetIndex = e'.packetIndex

theorem impair_congr {c c' : LinkConfig} (h : SameSettings c c') (payload : Bytes) (s3 s4 s5 : BitVec 64)
    (corrupt : Bool) : impair c payload s3 s4 s5 corrupt = impair c' payload s3 s4 s5 corrupt := by
  have hjitter : jitterOffset c s3 = jitterOffset c' s3 := by
    rw [jitterOffset, jitterOffset, h.jitterMs]
  have hhold : holdPackets c s4 = holdPackets c' s4 := by
    rw [holdPackets, holdPackets, h.reorderWindow]
  rw [impair, impair, hjitter, hhold, h.latencyMs]

theorem process_congr {e e' : ImpairmentEngine} (h : SameEngine e e') (payload : Bytes) :
    (process payload e).1 = (process payload e').1 ∧ SameEngine (process payload e).2 (process payload e').2 := by
  obtain ⟨config, rng, index⟩ := e
  obtain ⟨config', rng', index'⟩ := e'
  obtain ⟨hsettings, hrng, hindex⟩ := h
  cases hrng
  cases hindex
  simp only at hsettings
  rw [process_apply, process_apply]
  rw [impair_congr hsettings, hsettings.lossRate, hsettings.duplicateRate, hsettings.corruptRate]
  exact ⟨rfl, hsettings, rfl, rfl⟩

theorem processAll_congr {e e' : ImpairmentEngine} (h : SameEngine e e') (payloads : List Bytes) :
    (processAll payloads e).1 = (processAll payloads e').1 := by
  induction payloads generalizing e e' with
  | nil => rfl
  | cons payload rest ih =>
    obtain ⟨hfst, hsnd⟩ := process_congr h payload
    rw [processAll, Method.bind_apply, Method.bind_apply]
    rcases hp : process payload e with ⟨r, e1⟩
    rcases hp' : process payload e' with ⟨r', e1'⟩
    rw [hp, hp'] at hfst hsnd
    cases hfst
    cases r with
    | error err => rfl
    | ok o =>
      dsimp only
      rw [Method.bind_apply, Method.bind_apply]
      have hrest := ih hsnd
      rcases hq : processAll rest e1 with ⟨q, e2⟩
      rcases hq' : processAll rest e1' with ⟨q', e2'⟩
      rw [hq, hq'] at hrest
      cases hrest
      cases q <;> rfl

theorem sameEngine_new {c c' : LinkConfig} (h : SameSettings c c') : SameEngine (new c) (new c') where
  settings := h
  rng := by rw [new, new, h.seed]
  packetIndex := rfl

end ImpairmentEngine

/-! ### Equal configurations -/

/-- `a == b` of numbers; an integer and a float are compared exactly. -/
def Number.eq : Number → Number → Bool
  | .int n, .int m => n = m
  | .float x, .float y => x.eq y
  | .int n, .float x => x.isFinite && x.toRat = n
  | .float x, .int n => x.isFinite && x.toRat = n

def Number.isNegZero : Number → Bool
  | .int _ => false
  | .float x => x.isNegZero

/-- `c == c'`, field by field. -/
structure ConfigsEqual (c c' : LinkConfig) : Prop where
  seed : c.seed = c'.seed
  lossRate : c.lossRate.given.eq c'.lossRate.given = true
  duplicateRate : c.duplicateRate.given.eq c'.duplicateRate.given = true
  corruptRate : c.corruptRate.given.eq c'.corruptRate.given = true
  latencyMs : c.latencyMs = c'.latencyMs
  jitterMs : c.jitterMs = c'.jitterMs
  reorderWindow : c.reorderWindow = c'.reorderWindow

/-- No rate is `-0.0` in one configuration only. -/
structure SameZeros (c c' : LinkConfig) : Prop where
  lossRate : c.lossRate.given.isNegZero = c'.lossRate.given.isNegZero
  duplicateRate : c.duplicateRate.given.isNegZero = c'.duplicateRate.given.isNegZero
  corruptRate : c.corruptRate.given.isNegZero = c'.corruptRate.given.isNegZero

namespace Rate
variable {r r' : Rate}

theorem ofInt?_zero : Float64.ofInt? 0 = some .zero := by decide +kernel

theorem ofInt?_one : Float64.ofInt? 1 = some oneFloat := by decide +kernel

theorem value_of_int {n : Int} (h : r.given = .int n) : (n = 0 ∧ r.value = .zero) ∨ (n = 1 ∧ r.value = oneFloat) := by
  have hvalue : Float64.ofInt? n = some r.value := by
    have hv := r.value_eq
    rwa [h] at hv
  have h0 := r.nonneg
  have h1 := r.le_one
  simp only [Float64.le, Bool.and_eq_true, decide_eq_true_eq] at h0 h1
  have hone : oneFloat.toRat = 1 := by decide +kernel
  have hlow := Float64.toRat_le_iff.mpr h0.2
  have hhigh := Float64.toRat_le_iff.mpr h1.2
  rw [Float64.toRat_zero] at hlow
  rw [hone] at hhigh
  rcases Float64.ofInt?_unit hvalue hlow hhigh with rfl | rfl
  · exact .inl ⟨rfl, Option.some.inj (hvalue.symm.trans ofInt?_zero)⟩
  · exact .inr ⟨rfl, Option.some.inj (hvalue.symm.trans ofInt?_one)⟩

theorem value_of_float {x : Float64} (h : r.given = .float x) : r.value = x := by
  have hv := r.value_eq
  rw [h] at hv
  exact (Option.some.inj hv).symm

theorem toRat_of_int {n : Int} (h : r.given = .int n) : r.value.toRat = n := by
  rcases value_of_int h with ⟨rfl, hv⟩ | ⟨rfl, hv⟩
  · rw [hv]; decide +kernel
  · rw [hv]; decide +kernel

/-- Equal rates have doubles in the same place of the order. -/
theorem key_eq_of_eq (h : r.given.eq r'.given = true) : r.value.key = r'.value.key := by
  cases hr : r.given with
  | int n =>
    cases hr' : r'.given with
    | int m =>
      rw [hr, hr'] at h
      refine Float64.toRat_eq_iff.mp ?_
      rw [toRat_of_int hr, toRat_of_int hr', of_decide_eq_true h]
    | float y =>
      rw [hr, hr', Number.eq, Bool.and_eq_true, decide_eq_true_eq] at h
      refine Float64.toRat_eq_iff.mp ?_
      rw [toRat_of_int hr, value_of_float hr', h.2]
  | float x =>
    cases hr' : r'.given with
    | int m =>
      rw [hr, hr', Number.eq, Bool.and_eq_true, decide_eq_true_eq] at h
      refine Float64.toRat_eq_iff.mp ?_
      rw [toRat_of_int hr', value_of_float hr, h.2]
    | float y =>
      rw [hr, hr', Number.eq, Float64.eq, Bool.and_eq_true, decide_eq_true_eq] at h
      rw [value_of_float hr, value_of_float hr', h.2]

theorem isNegZero_value (r : Rate) : r.value.isNegZero = r.given.isNegZero := by
  cases hr : r.given with
  | int n =>
    rcases value_of_int hr with ⟨-, hv⟩ | ⟨-, hv⟩
    · rw [hv]; rfl
    · rw [hv]; rfl
  | float x => rw [value_of_float hr]; rfl

/-- Equal rates have one double when both or none of them are `-0.0`. -/
theorem value_eq_iff (h : r.given.eq r'.given = true) : r.value = r'.value ↔ r.given.isNegZero = r'.given.isNegZero := by
  rw [← isNegZero_value, ← isNegZero_value]
  exact ⟨fun heq => by rw [heq], Float64.eq_of_key (key_eq_of_eq h)⟩

end Rate

theorem sameSettings_iff_sameZeros {c c' : LinkConfig} (h : ConfigsEqual c c') :
    SameSettings c c' ↔ SameZeros c c' := by
  constructor
  · intro hs
    exact ⟨(Rate.value_eq_iff h.lossRate).mp hs.lossRate, (Rate.value_eq_iff h.duplicateRate).mp hs.duplicateRate,
      (Rate.value_eq_iff h.corruptRate).mp hs.corruptRate⟩
  · intro hz
    exact {
      seed := h.seed
      lossRate := (Rate.value_eq_iff h.lossRate).mpr hz.lossRate
      duplicateRate := (Rate.value_eq_iff h.duplicateRate).mpr hz.duplicateRate
      corruptRate := (Rate.value_eq_iff h.corruptRate).mpr hz.corruptRate
      latencyMs := h.latencyMs
      jitterMs := h.jitterMs
      reorderWindow := h.reorderWindow }

end Link

/-! ### Alarm policies -/

section
variable {α : Type} [FloatLike α]

/-- The same sections, whatever the name and the description. -/
structure SameSections (p p' : AlarmPolicy α) : Prop where
  temperature : p.temperature = p'.temperature
  battery : p.battery = p'.battery
  mode : p.mode = p'.mode
  sequence : p.sequence = p'.sequence

namespace AlarmEngine

/-- Two engines that will do the same. -/
structure SameEngine (e e' : AlarmEngine α) : Prop where
  sections : SameSections e.policy e'.policy
  lastSequence : e.lastSequence = e'.lastSequence
  temperatureSeverity : e.temperatureSeverity = e'.temperatureSeverity
  batteryActive : e.batteryActive = e'.batteryActive
  safeModeActive : e.safeModeActive = e'.safeModeActive

theorem evaluate_congr {e e' : AlarmEngine α} (h : SameEngine e e') (p : DecodedPacket) :
    (e.evaluate p).1 = (e'.evaluate p).1 ∧ SameEngine (e.advance p) (e'.advance p) := by
  constructor
  · rw [evaluate_fst, evaluate_fst, evaluateSequence_fst_congr h.sections.sequence h.lastSequence,
      evaluateTemperature_fst_congr h.sections.temperature h.temperatureSeverity,
      evaluateBattery_fst_congr h.sections.battery h.batteryActive,
      evaluateMode_fst_congr h.sections.mode h.safeModeActive]
  · rw [advance_eq, advance_eq]
    exact {
      sections := h.sections
      lastSequence := rfl
      temperatureSeverity := by rw [h.sections.temperature, h.temperatureSeverity]
      batteryActive := by rw [h.sections.battery, h.batteryActive]
      safeModeActive := by rw [h.sections.mode] }

theorem transitions_congr {e e' : AlarmEngine α} (h : SameEngine e e') (packets : List DecodedPacket) :
    e.transitions packets = e'.transitions packets := by
  induction packets generalizing e e' with
  | nil => rfl
  | cons p packets ih =>
    obtain ⟨hfst, hnext⟩ := evaluate_congr h p
    rw [transitions, transitions, hfst, ih hnext]

theorem sameEngine_new {p p' : AlarmPolicy α} (h : SameSections p p') : SameEngine (new p) (new p') :=
  ⟨h, rfl, rfl, rfl, rfl⟩

end AlarmEngine

theorem TemperatureAlarmPolicy.ext_thresholds {t t' : TemperatureAlarmPolicy α} (hw : t.warningC = t'.warningC)
    (hc : t.criticalC = t'.criticalC) (hh : t.hysteresisC = t'.hysteresisC) : t = t' := by
  cases t
  cases t'
  cases hw
  cases hc
  cases hh
  rfl

theorem BatteryAlarmPolicy.ext_thresholds {b b' : BatteryAlarmPolicy α} (hc : b.criticalV = b'.criticalV)
    (hh : b.hysteresisV = b'.hysteresisV) : b = b' := by
  cases b
  cases b'
  cases hc
  cases hh
  rfl

end

def temperatureSectionItems (t : TemperatureAlarmPolicy Float64) : List (String × Json) := [
  ("critical_c", .str t.criticalC.hex), ("hysteresis_c", .str t.hysteresisC.hex), ("warning_c", .str t.warningC.hex)]

def batterySectionItems (b : BatteryAlarmPolicy Float64) : List (String × Json) := [
  ("critical_v", .str b.criticalV.hex), ("hysteresis_v", .str b.hysteresisV.hex)]

def effectivePolicyItems (p : AlarmPolicy Float64) : List (String × Json) := [
  ("battery", .obj (batterySectionItems p.battery)),
  ("mode", .obj [("alarm_on_safe", .bool p.mode.alarmOnSafe)]),
  ("schema_version", .int ALARM_POLICY_FINGERPRINT_SCHEMA_VERSION),
  ("sequence", .obj [("detect_gaps", .bool p.sequence.detectGaps)]),
  ("temperature", .obj (temperatureSectionItems p.temperature))]

theorem floatFree_effectivePolicyItems (p : AlarmPolicy Float64) : (Json.obj (effectivePolicyItems p)).FloatFree := by
  have hsection (items : List (String × Json)) (h : ∀ kv ∈ items, kv.2.FloatFree) : (Json.obj items).FloatFree := .obj h
  refine hsection _ ?_
  simp only [effectivePolicyItems, List.forall_mem_cons, List.not_mem_nil, false_implies, implies_true, and_true]
  refine ⟨hsection _ ?_, hsection _ ?_, .int _, hsection _ ?_, hsection _ ?_⟩
  · simp [batterySectionItems, Json.FloatFree.str]
  · simp [Json.FloatFree.bool]
  · simp [Json.FloatFree.bool]
  · simp [temperatureSectionItems, Json.FloatFree.str]

/-- The canonical text says exactly what the sections are. -/
theorem canonicalEffectiveAlarmPolicy_eq_iff {p p' : AlarmPolicy Float64} :
    canonicalEffectiveAlarmPolicy p = canonicalEffectiveAlarmPolicy p' ↔ SameSections p p' := by
  have htext (p : AlarmPolicy Float64) : canonicalEffectiveAlarmPolicy p = (Json.obj (effectivePolicyItems p)).dumps := rfl
  rw [htext, htext]
  constructor
  · intro h
    have hsorted := Json.sortKeys_eq_of_dumps (floatFree_effectivePolicyItems p) (floatFree_effectivePolicyItems p') h
    have hdocument := Json.values_eq_of_sortKeys ["battery", "mode", "schema_version", "sequence", "temperature"] rfl rfl
      (by decide) hsorted
    simp only [effectivePolicyItems, List.map_cons, List.map_nil, List.cons.injEq, and_true] at hdocument
    obtain ⟨hbattery, hmode, -, hsequence, htemperature⟩ := hdocument
    have hbattery := Json.values_eq_of_sortKeys ["critical_v", "hysteresis_v"] rfl rfl (by decide) hbattery
    have hmode := Json.values_eq_of_sortKeys ["alarm_on_safe"] rfl rfl (by decide) hmode
    have hsequence := Json.values_eq_of_sortKeys ["detect_gaps"] rfl rfl (by decide) hsequence
    have htemperature := Json.values_eq_of_sortKeys ["critical_c", "hysteresis_c", "warning_c"] rfl rfl (by decide)
      htemperature
    simp only [batterySectionItems, temperatureSectionItems, List.map_cons, List.map_nil, Json.sortKeys, List.cons.injEq,
      Json.str.injEq, Json.bool.injEq, and_true] at hbattery hmode hsequence htemperature
    have ht := p.temperature.finite
    have ht' := p'.temperature.finite
    have hb := p.battery.finite
    have hb' := p'.battery.finite
    exact {
      temperature := TemperatureAlarmPolicy.ext_thresholds (Float64.hex_injective ht.1 ht'.1 htemperature.2.2)
        (Float64.hex_injective ht.2.1 ht'.2.1 htemperature.1) (Float64.hex_injective ht.2.2 ht'.2.2 htemperature.2.1)
      battery := BatteryAlarmPolicy.ext_thresholds (Float64.hex_injective hb.1 hb'.1 hbattery.1)
        (Float64.hex_injective hb.2 hb'.2 hbattery.2)
      mode := congrArg ModeAlarmPolicy.mk hmode
      sequence := congrArg SequenceAlarmPolicy.mk hsequence }
  · intro h
    rw [effectivePolicyItems, effectivePolicyItems, h.temperature, h.battery, h.mode, h.sequence]

/-- `p.temperature == p'.temperature` and so on for the four sections. -/
structure SectionsEqual (p p' : AlarmPolicy Float64) : Prop where
  warningC : p.temperature.warningC.eq p'.temperature.warningC = true
  criticalC : p.temperature.criticalC.eq p'.temperature.criticalC = true
  hysteresisC : p.temperature.hysteresisC.eq p'.temperature.hysteresisC = true
  criticalV : p.battery.criticalV.eq p'.battery.criticalV = true
  hysteresisV : p.battery.hysteresisV.eq p'.battery.hysteresisV = true
  mode : p.mode = p'.mode
  sequence : p.sequence = p'.sequence

/-- No threshold is `-0.0` in one policy only. -/
structure SameZeros (p p' : AlarmPolicy Float64) : Prop where
  warningC : p.temperature.warningC.isNegZero = p'.temperature.warningC.isNegZero
  criticalC : p.temperature.criticalC.isNegZero = p'.temperature.criticalC.isNegZero
  hysteresisC : p.temperature.hysteresisC.isNegZero = p'.temperature.hysteresisC.isNegZero
  criticalV : p.battery.criticalV.isNegZero = p'.battery.criticalV.isNegZero
  hysteresisV : p.battery.hysteresisV.isNegZero = p'.battery.hysteresisV.isNegZero

theorem canonicalEffectiveAlarmPolicy_eq_iff_sameZeros {p p' : AlarmPolicy Float64} (h : SectionsEqual p p') :
    canonicalEffectiveAlarmPolicy p = canonicalEffectiveAlarmPolicy p' ↔ SameZeros p p' := by
  have hsame {x y : Float64} (heq : x.eq y = true) (hz : x.isNegZero = y.isNegZero) : x = y := by
    rw [Float64.eq, Bool.and_eq_true, decide_eq_true_eq] at heq
    exact Float64.eq_of_key heq.2 hz
  rw [canonicalEffectiveAlarmPolicy_eq_iff]
  constructor
  · rintro ⟨ht, hb, -, -⟩
    constructor
    · rw [ht]
    · rw [ht]
    · rw [ht]
    · rw [hb]
    · rw [hb]
  · intro hz
    exact {
      temperature := TemperatureAlarmPolicy.ext_thresholds (hsame h.warningC hz.warningC) (hsame h.criticalC hz.criticalC)
        (hsame h.hysteresisC hz.hysteresisC)
      battery := BatteryAlarmPolicy.ext_thresholds (hsame h.criticalV hz.criticalV) (hsame h.hysteresisV hz.hysteresisV)
      mode := h.mode
      sequence := h.sequence }

/-! ### Fingerprints and behaviour -/

open Link

/-- Configurations with one canonical text give the same outcomes for every list of payloads, and policies with one
canonical text the same transitions for every stream of packets. -/
theorem equal_texts_equal_behaviour {c c' : LinkConfig} {p p' : AlarmPolicy Float64} {text : String}
    (hc : canonicalEffectiveConfig c = .ok text) (hc' : canonicalEffectiveConfig c' = .ok text)
    (hp : canonicalEffectiveAlarmPolicy p = canonicalEffectiveAlarmPolicy p') :
    (∀ payloads, (ImpairmentEngine.processAll payloads (.new c)).1 = (ImpairmentEngine.processAll payloads (.new c')).1) ∧
      ∀ packets, (AlarmEngine.new p).transitions packets = (AlarmEngine.new p').transitions packets := by
  constructor
  · intro payloads
    have hsettings := (one_text_iff.mp ⟨text, hc, hc'⟩).1
    exact ImpairmentEngine.processAll_congr (ImpairmentEngine.sameEngine_new hsettings) payloads
  · intro packets
    have hsections := canonicalEffectiveAlarmPolicy_eq_iff.mp hp
    exact AlarmEngine.transitions_congr (AlarmEngine.sameEngine_new hsections) packets

/-- Every packet is lost: the rate is the integer one. -/
def certainLoss : LinkConfig :=
  { LinkConfig.default with lossRate := { Rate.one with given := .int 1, value_eq := Rate.ofInt?_one } }

/-- Every packet is lost: the rate is the float one. -/
def certainLossFloat : LinkConfig := { LinkConfig.default with lossRate := .one }

theorem written_certainLoss : Written certainLoss := ⟨lt_strLimit (by decide), lt_strLimit (by decide)⟩

theorem isPolicyName_anonymous : isPolicyName "x" = true := by decide

theorem no_description : ∀ s ∈ (none : Option String), isDescription s = true := by simp

/-- The default policy under another name and without a description. -/
def anonymousPolicy : AlarmPolicy Float64 :=
  { DEFAULT_ALARM_POLICY with name := "x", description := none, name_ok := isPolicyName_anonymous, description_ok := no_description }

/-- A rate written as an integer and a renamed policy change nothing. -/
theorem equal_texts_equal_behaviour_certainLoss :
    (∀ payloads, (ImpairmentEngine.processAll payloads (.new certainLoss)).1 =
      (ImpairmentEngine.processAll payloads (.new certainLossFloat)).1) ∧
    ∀ packets, (AlarmEngine.new anonymousPolicy).transitions packets =
      (AlarmEngine.new DEFAULT_ALARM_POLICY).transitions packets := by
  obtain ⟨text, hc, hc'⟩ := one_text_iff.mpr
    ⟨(⟨rfl, rfl, rfl, rfl, rfl, rfl, rfl⟩ : SameSettings certainLoss certainLossFloat), written_certainLoss⟩
  exact equal_texts_equal_behaviour hc hc' (canonicalEffectiveAlarmPolicy_eq_iff.mpr ⟨rfl, rfl, rfl, rfl⟩)

/-- Configurations that compare equal have one canonical text exactly when no rate is `-0.0` in one of them only and
the delays can be written, and policies whose sections compare equal exactly when no threshold is `-0.0` in one of them
only. -/
theorem equal_settings_one_text_iff {c c' : LinkConfig} {p p' : AlarmPolicy Float64} (hc : ConfigsEqual c c')
    (hp : SectionsEqual p p') :
    ((∃ text, canonicalEffectiveConfig c = .ok text ∧ canonicalEffectiveConfig c' = .ok text) ↔
        Link.SameZeros c c' ∧ Written c) ∧
      (canonicalEffectiveAlarmPolicy p = canonicalEffectiveAlarmPolicy p' ↔ SameZeros p p') := by
  rw [one_text_iff, sameSettings_iff_sameZeros hc]
  exact ⟨Iff.rfl, canonicalEffectiveAlarmPolicy_eq_iff_sameZeros hp⟩

theorem configsEqual_certainLoss : ConfigsEqual certainLoss certainLossFloat :=
  ⟨rfl, by decide +kernel, by decide +kernel, by decide +kernel, rfl, rfl, rfl⟩

theorem sectionsEqual_anonymousPolicy : SectionsEqual anonymousPolicy DEFAULT_ALARM_POLICY :=
  ⟨by decide +kernel, by decide +kernel, by decide +kernel, by decide +kernel, by decide +kernel, rfl, rfl⟩

/-- An integer against a float, and a name against another, leave the texts as they are. -/
theorem equal_settings_one_text_certainLoss :
    (∃ text, canonicalEffectiveConfig certainLoss = .ok text ∧ canonicalEffectiveConfig certainLossFloat = .ok text) ∧
      canonicalEffectiveAlarmPolicy anonymousPolicy = canonicalEffectiveAlarmPolicy DEFAULT_ALARM_POLICY := by
  have h := equal_settings_one_text_iff configsEqual_certainLoss sectionsEqual_anonymousPolicy
  exact ⟨h.1.mpr ⟨⟨rfl, rfl, rfl⟩, written_certainLoss⟩, h.2.mpr ⟨rfl, rfl, rfl, rfl, rfl⟩⟩

/-- The loss rate `-0.0`. -/
def negZeroLoss : LinkConfig := { LinkConfig.default with
  lossRate := ⟨.float (.ofMag true 0), .ofMag true 0, rfl, by decide +kernel, by decide +kernel, by decide +kernel⟩ }

/-- The rates `-0.0` and `0.0` are equal and have different texts. -/
theorem equal_settings_two_texts :
    ¬((∀ c c' : LinkConfig, ConfigsEqual c c' →
        ∃ text, canonicalEffectiveConfig c = .ok text ∧ canonicalEffectiveConfig c' = .ok text) ∧
      ∀ p p' : AlarmPolicy Float64, SectionsEqual p p' →
        canonicalEffectiveAlarmPolicy p = canonicalEffectiveAlarmPolicy p') := by
  rintro ⟨h, -⟩
  have hequal : ConfigsEqual negZeroLoss LinkConfig.default :=
    ⟨rfl, by decide +kernel, by decide +kernel, by decide +kernel, rfl, rfl, rfl⟩
  have hzeros := (sameSettings_iff_sameZeros hequal).mp (one_text_iff.mp (h _ _ hequal)).1
  exact absurd hzeros.lossRate (by decide +kernel)

end OrbitOps
