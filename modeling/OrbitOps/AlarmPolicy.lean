import OrbitOps.Py.FloatLike
import OrbitOps.Py.Sha256
import OrbitOps.Validation

/-!
# Alarm policies

A policy can only hold what its constructors accept. Its thresholds are floats; the constructors
and the alarm engine read the same over exact rationals. The fingerprint is the digest of the
effective policy's canonical JSON.
-/

namespace OrbitOps
open Py

def ALARM_POLICY_SCHEMA_VERSION : Nat := 1

section
variable (α : Type) [FloatLike α]
open FloatLike

/-- Temperature thresholds and shared high-temperature hysteresis in °C. -/
structure TemperatureAlarmPolicy where
  warningC : α
  criticalC : α
  hysteresisC : α
  finite : isFinite warningC = true ∧ isFinite criticalC = true ∧ isFinite hysteresisC = true
  ordered : le criticalC warningC = false
  hysteresis_nonneg : lt hysteresisC zero = false
  clear_finite : isFinite (sub warningC hysteresisC) = true ∧ isFinite (sub criticalC hysteresisC) = true
  clear_ordered : lt (sub criticalC hysteresisC) warningC = false

/-- Low-battery critical threshold and recovery hysteresis in volts. -/
structure BatteryAlarmPolicy where
  criticalV : α
  hysteresisV : α
  finite : isFinite criticalV = true ∧ isFinite hysteresisV = true
  critical_pos : le criticalV zero = false
  hysteresis_nonneg : lt hysteresisV zero = false
  clear_finite : isFinite (add criticalV hysteresisV) = true

structure ModeAlarmPolicy where
  alarmOnSafe : Bool
deriving DecidableEq, Repr

structure SequenceAlarmPolicy where
  detectGaps : Bool
deriving DecidableEq, Repr

/-- A lower-case letter or a digit. -/
def isSlugChar (c : Char) : Bool := ('a' ≤ c && c ≤ 'z') || ('0' ≤ c && c ≤ '9')

/-- `[a-z0-9](?:[a-z0-9-]{0,62}[a-z0-9])?`: at most 64 characters, the first and the last no hyphen. -/
def isPolicyName (s : String) : Bool :=
  s.toList.length ≤ 64 && (s.toList.head?.any isSlugChar) && (s.toList.getLast?.any isSlugChar) &&
    s.toList.all fun c => isSlugChar c || c == '-'

/-- A description that a policy may carry. -/
def isDescription (s : String) : Bool := !s.isEmpty && s.toList.length ≤ 500 && !hasNul s

structure AlarmPolicy where
  name : String
  description : Option String
  temperature : TemperatureAlarmPolicy α
  battery : BatteryAlarmPolicy α
  mode : ModeAlarmPolicy
  sequence : SequenceAlarmPolicy
  name_ok : isPolicyName name = true
  description_ok : ∀ s ∈ description, isDescription s = true

/-- Every policy has the one supported version. -/
def AlarmPolicy.schemaVersion (_ : AlarmPolicy α) : Nat := ALARM_POLICY_SCHEMA_VERSION

variable {α}

/-- `_finite_float` on a number. -/
def requireFinite (name : String) (x : α) : Result Unit :=
  if isFinite x then .ok () else .error (valueError (name ++ " must be finite"))

def TemperatureAlarmPolicy.new (warningC criticalC hysteresisC : α) : Result (TemperatureAlarmPolicy α) := do
  requireFinite "temperature.warning_c" warningC
  requireFinite "temperature.critical_c" criticalC
  requireFinite "temperature.hysteresis_c" hysteresisC
  if hord : le criticalC warningC = false then
    if hhyst : lt hysteresisC zero = false then
      if hfin : (isFinite warningC = true ∧ isFinite criticalC = true ∧ isFinite hysteresisC = true) ∧
          isFinite (sub warningC hysteresisC) = true ∧ isFinite (sub criticalC hysteresisC) = true then
        if hclear : lt (sub criticalC hysteresisC) warningC = false then
          .ok ⟨warningC, criticalC, hysteresisC, hfin.1, hord, hhyst, hfin.2, hclear⟩
        else .error (valueError "temperature critical clear threshold must not fall below temperature.warning_c")
      else .error (valueError "temperature clear thresholds must be finite")
    else .error (valueError "temperature.hysteresis_c must be non-negative")
  else .error (valueError "temperature.warning_c must be less than temperature.critical_c")

def BatteryAlarmPolicy.new (criticalV hysteresisV : α) : Result (BatteryAlarmPolicy α) := do
  requireFinite "battery.critical_v" criticalV
  requireFinite "battery.hysteresis_v" hysteresisV
  if hpos : le criticalV zero = false then
    if hhyst : lt hysteresisV zero = false then
      if hfin : (isFinite criticalV = true ∧ isFinite hysteresisV = true) ∧
          isFinite (add criticalV hysteresisV) = true then
        .ok ⟨criticalV, hysteresisV, hfin.1, hpos, hhyst, hfin.2⟩
      else .error (valueError "battery clear threshold must be finite")
    else .error (valueError "battery.hysteresis_v must be non-negative")
  else .error (valueError "battery.critical_v must be positive")

def requireDescription : Json → Result { d : Option String // ∀ s ∈ d, isDescription s = true }
  | .null => .ok ⟨none, by simp⟩
  | .str s =>
    if s.isEmpty then .error (valueError "description must not be empty when provided")
    else if 500 < s.toList.length then .error (valueError "description must be at most 500 characters")
    else if hasNul s then .error (valueError "description must not contain NUL characters")
    else if h : isDescription s = true then .ok ⟨some s, fun _ hs => by cases hs; exact h⟩
    else .error (valueError "description must not contain NUL characters")
  | _ => .error (typeError "description must be a string or None")

/-- A description as an argument. -/
def descriptionJson : Option String → Json
  | none => .null
  | some s => .str s

/-- `AlarmPolicy(...)` on validated sections. -/
def AlarmPolicy.new (schemaVersion name description : Json) (temperature : TemperatureAlarmPolicy α)
    (battery : BatteryAlarmPolicy α) (mode : ModeAlarmPolicy) (sequence : SequenceAlarmPolicy) :
    Result (AlarmPolicy α) :=
  match schemaVersion with
  | .int version =>
    if version ≠ 1 then .error (valueError s!"unsupported schema_version {version}; expected 1")
    else
      match name with
      | .str name =>
        if hname : isPolicyName name = true then do
          let description ← requireDescription description
          return ⟨name, description.1, temperature, battery, mode, sequence, hname, description.2⟩
        else .error (valueError ("name must be a lowercase slug of 1 to 64 characters using letters, digits, and " ++
          "hyphens; hyphens may not be leading or trailing"))
      | _ => .error (typeError "name must be a string")
  | _ => .error (typeError "schema_version must be an integer")

theorem requireFinite_eq_ok {name : String} {x : α} : requireFinite name x = .ok () ↔ isFinite x = true := by
  unfold requireFinite
  split_ifs with h <;> simp [h]

/-- The thresholds that the constructor accepts are those of a policy, unchanged. -/
theorem TemperatureAlarmPolicy.new_eq_ok {w c h : α} {p : TemperatureAlarmPolicy α} :
    TemperatureAlarmPolicy.new w c h = .ok p ↔ p.warningC = w ∧ p.criticalC = c ∧ p.hysteresisC = h := by
  constructor
  · intro hnew
    obtain ⟨⟨⟩, -, hnew⟩ := except_bind_eq_ok.mp hnew
    obtain ⟨⟨⟩, -, hnew⟩ := except_bind_eq_ok.mp hnew
    obtain ⟨⟨⟩, -, hnew⟩ := except_bind_eq_ok.mp hnew
    split_ifs at hnew
    cases hnew
    exact ⟨rfl, rfl, rfl⟩
  · rintro ⟨rfl, rfl, rfl⟩
    refine except_bind_eq_ok.mpr ⟨(), requireFinite_eq_ok.mpr p.finite.1, ?_⟩
    refine except_bind_eq_ok.mpr ⟨(), requireFinite_eq_ok.mpr p.finite.2.1, ?_⟩
    refine except_bind_eq_ok.mpr ⟨(), requireFinite_eq_ok.mpr p.finite.2.2, ?_⟩
    rw [dif_pos p.ordered, dif_pos p.hysteresis_nonneg, dif_pos ⟨p.finite, p.clear_finite⟩, dif_pos p.clear_ordered]

theorem BatteryAlarmPolicy.new_eq_ok {c h : α} {p : BatteryAlarmPolicy α} :
    BatteryAlarmPolicy.new c h = .ok p ↔ p.criticalV = c ∧ p.hysteresisV = h := by
  constructor
  · intro hnew
    obtain ⟨⟨⟩, -, hnew⟩ := except_bind_eq_ok.mp hnew
    obtain ⟨⟨⟩, -, hnew⟩ := except_bind_eq_ok.mp hnew
    split_ifs at hnew
    cases hnew
    exact ⟨rfl, rfl⟩
  · rintro ⟨rfl, rfl⟩
    refine except_bind_eq_ok.mpr ⟨(), requireFinite_eq_ok.mpr p.finite.1, ?_⟩
    refine except_bind_eq_ok.mpr ⟨(), requireFinite_eq_ok.mpr p.finite.2, ?_⟩
    rw [dif_pos p.critical_pos, dif_pos p.hysteresis_nonneg, dif_pos ⟨p.finite, p.clear_finite⟩]

theorem requireDescription_eq_ok {j : Json} {d : { d : Option String // ∀ s ∈ d, isDescription s = true }} :
    requireDescription j = .ok d ↔ j = descriptionJson d.1 := by
  constructor
  · intro h
    cases j with
    | null => cases h; rfl
    | str s =>
      simp only [requireDescription] at h
      split_ifs at h
      cases h
      rfl
    | _ => cases h
  · intro h
    obtain ⟨_ | s, hd⟩ := d
    · subst h
      rfl
    · have hs : isDescription s = true := hd s rfl
      have hparts := hs
      simp only [isDescription, Bool.and_eq_true, Bool.not_eq_true', decide_eq_true_eq] at hparts
      subst h
      simp only [descriptionJson, requireDescription]
      rw [if_neg (by rw [hparts.1.1]; exact Bool.false_ne_true), if_neg (not_lt.mpr hparts.1.2),
        if_neg (by rw [hparts.2]; exact Bool.false_ne_true), dif_pos hs]

theorem AlarmPolicy.new_eq_ok {schemaVersion name description : Json} {temperature : TemperatureAlarmPolicy α}
    {battery : BatteryAlarmPolicy α} {mode : ModeAlarmPolicy} {sequence : SequenceAlarmPolicy} {p : AlarmPolicy α} :
    AlarmPolicy.new schemaVersion name description temperature battery mode sequence = .ok p ↔
      schemaVersion = .int 1 ∧ name = .str p.name ∧ description = descriptionJson p.description ∧
      temperature = p.temperature ∧ battery = p.battery ∧ mode = p.mode ∧ sequence = p.sequence := by
  constructor
  · intro h
    cases schemaVersion with
    | int version =>
      simp only [AlarmPolicy.new] at h
      obtain ⟨hversion, h⟩ := except_guard_eq_ok.mp h
      cases name with
      | str name =>
        simp only at h
        split_ifs at h
        obtain ⟨d, hd, h⟩ := except_bind_eq_ok.mp h
        cases h
        exact ⟨congrArg Json.int (not_not.mp hversion), rfl, requireDescription_eq_ok.mp hd, rfl, rfl, rfl, rfl⟩
      | _ => cases h
    | _ => cases h
  · rintro ⟨rfl, rfl, hd, rfl, rfl, rfl, rfl⟩
    simp only [AlarmPolicy.new]
    rw [if_neg (fun h => h rfl), dif_pos p.name_ok]
    exact except_bind_eq_ok.mpr ⟨⟨p.description, p.description_ok⟩, requireDescription_eq_ok.mpr hd, rfl⟩

theorem catchable_requireFinite (name : String) (x : α) : Catchable (requireFinite name x) := by
  unfold requireFinite
  split_ifs
  · exact catchable_ok ()
  · exact catchable_valueError _

/-- Thresholds that are floats already do not overflow. -/
theorem TemperatureAlarmPolicy.catchable_new (w c h : α) : Catchable (TemperatureAlarmPolicy.new w c h) := by
  refine (catchable_requireFinite _ _).bind fun _ => (catchable_requireFinite _ _).bind fun _ =>
    (catchable_requireFinite _ _).bind fun _ => ?_
  split_ifs
  · exact catchable_ok _
  all_goals exact catchable_valueError _

theorem BatteryAlarmPolicy.catchable_new (c h : α) : Catchable (BatteryAlarmPolicy.new c h) := by
  refine (catchable_requireFinite _ _).bind fun _ => (catchable_requireFinite _ _).bind fun _ => ?_
  split_ifs
  · exact catchable_ok _
  all_goals exact catchable_valueError _

theorem catchable_requireDescription (j : Json) : Catchable (requireDescription j) := by
  cases j with
  | null => exact catchable_ok _
  | str s =>
    simp only [requireDescription]
    split_ifs
    · exact catchable_valueError _
    · exact catchable_valueError _
    · exact catchable_valueError _
    · exact catchable_ok _
    · exact catchable_valueError _
  | _ => exact catchable_typeError _

theorem AlarmPolicy.catchable_new (schemaVersion name description : Json) (temperature : TemperatureAlarmPolicy α)
    (battery : BatteryAlarmPolicy α) (mode : ModeAlarmPolicy) (sequence : SequenceAlarmPolicy) :
    Catchable (AlarmPolicy.new schemaVersion name description temperature battery mode sequence) := by
  cases schemaVersion with
  | int version =>
    simp only [AlarmPolicy.new]
    refine catchable_guard rfl ?_
    cases name with
    | str name =>
      simp only
      split_ifs
      · exact (catchable_requireDescription _).bind fun _ => catchable_ok _
      · exact catchable_valueError _
    | _ => exact catchable_typeError _
  | _ => exact catchable_typeError _

theorem AlarmPolicy.name_visible (p : AlarmPolicy α) : IsVisible p.name := by
  have hslug : ∀ c, isSlugChar c = true → isSpace c = false ∧ c ≠ Char.ofNat 0 := by
    intro c hc
    have hle (a b : Char) : (decide (a ≤ b)) = decide (a.toNat ≤ b.toNat) := rfl
    simp only [isSlugChar, hle, Bool.or_eq_true, Bool.and_eq_true, decide_eq_true_eq] at hc
    have hn : (48 ≤ c.toNat ∧ c.toNat ≤ 57) ∨ (97 ≤ c.toNat ∧ c.toNat ≤ 122) := hc.symm
    refine ⟨?_, fun h0 => ?_⟩
    · simp only [isSpace, Bool.or_eq_false_iff, Bool.and_eq_false_iff, decide_eq_false_iff_not, beq_eq_false_iff_ne]
      omega
    · rw [h0] at hn
      revert hn
      decide
  have hname := p.name_ok
  simp only [isPolicyName, Bool.and_eq_true, List.all_eq_true, Bool.or_eq_true, beq_iff_eq] at hname
  obtain ⟨⟨⟨-, hhead⟩, -⟩, hall⟩ := hname
  constructor
  · cases hh : p.name.toList.head? with
    | none => rw [hh] at hhead; cases hhead
    | some c =>
      rw [hh] at hhead
      exact not_isBlank_of_mem (List.mem_of_mem_head? hh) (hslug c hhead).1
  · rw [hasNul, Bool.eq_false_iff]
    intro hnul
    rcases hall _ (List.contains_iff_mem.mp hnul) with hc | hc
    · exact (hslug _ hc).2 rfl
    · revert hc
      decide

end

/-! ### The default policy -/

/-- A whole number as a `float` literal. -/
def floatLit (n : Nat) : Float64 := (Float64.ofInt? n).getD .nan

def DEFAULT_ALARM_POLICY : AlarmPolicy Float64 where
  name := "standard"
  description := some "Backward-compatible OrbitOps v0.3 alarm thresholds."
  temperature := ⟨floatLit 50, floatLit 60, .zero, by decide +kernel, by decide +kernel, by decide +kernel,
    by decide +kernel, by decide +kernel⟩
  battery := ⟨floatLit 7, .zero, by decide +kernel, by decide +kernel, by decide +kernel, by decide +kernel⟩
  mode := ⟨true⟩
  sequence := ⟨true⟩
  name_ok := by decide
  description_ok := by decide

/-! ### Fingerprints -/

def ALARM_POLICY_FINGERPRINT_SCHEMA_VERSION : Nat := 1

/-- The behaviour-affecting fields in canonical form. -/
def canonicalEffectiveAlarmPolicy (policy : AlarmPolicy Float64) : String :=
  (Json.obj [
    ("battery", .obj [
      ("critical_v", .str policy.battery.criticalV.hex),
      ("hysteresis_v", .str policy.battery.hysteresisV.hex)]),
    ("mode", .obj [("alarm_on_safe", .bool policy.mode.alarmOnSafe)]),
    ("schema_version", .int ALARM_POLICY_FINGERPRINT_SCHEMA_VERSION),
    ("sequence", .obj [("detect_gaps", .bool policy.sequence.detectGaps)]),
    ("temperature", .obj [
      ("critical_c", .str policy.temperature.criticalC.hex),
      ("hysteresis_c", .str policy.temperature.hysteresisC.hex),
      ("warning_c", .str policy.temperature.warningC.hex)])]).dumps

/-- `s.encode("ascii")`. -/
def asciiBytes (s : String) : Bytes := s.toList.map fun c => UInt8.ofNat c.toNat

def alarmPolicyFingerprint (policy : AlarmPolicy Float64) : String :=
  "sha256:" ++ hexOfBytes (Sha256.digest (asciiBytes (canonicalEffectiveAlarmPolicy policy)))

theorem alarmPolicyFingerprint_default : alarmPolicyFingerprint DEFAULT_ALARM_POLICY =
    "sha256:896434f1a10b2f021f9a6f18b2e8c5b28bb43931202848f87dc449b99213e2e2" := by
  decide +kernel

theorem isFingerprint_digest (data : Bytes) : isFingerprint ("sha256:" ++ hexOfBytes (Sha256.digest data)) = true := by
  have hdigit : ∀ n < 16, (('0' ≤ hexDigit n && hexDigit n ≤ '9') || ('a' ≤ hexDigit n && hexDigit n ≤ 'f')) = true := by
    decide
  have htext : ("sha256:" ++ hexOfBytes (Sha256.digest data)).toList =
      "sha256:".toList ++ (Sha256.digest data).flatMap hexByte := by
    simp [hexOfBytes]
  have hlen : ((Sha256.digest data).flatMap hexByte).length = 64 := by
    rw [List.length_flatMap, show (fun b => (hexByte b).length) = fun _ => 2 from rfl, List.map_const', List.sum_replicate,
      Sha256.length_digest]
    rfl
  have hsplit : "sha256:".toList.length = 7 := rfl
  rw [isFingerprint, htext, ← hsplit, List.take_left, List.drop_left, hlen]
  simp only [beq_self_eq_true, Bool.true_and, List.all_eq_true, List.mem_flatMap]
  rintro c ⟨b, -, hc⟩
  have hb : b.toNat < 256 := b.toNat_lt
  rcases List.mem_cons.mp hc with rfl | hc
  · exact hdigit _ (by omega)
  · rw [List.mem_singleton.mp hc]
    exact hdigit _ (by omega)

end OrbitOps
