import OrbitOps.Profiles

/-!
# Parsing alarm policies

The parser reads a policy from a TOML document: all four sections with exactly their keys, and every
threshold a number. As in the mission-profile parser, an integer too large for `float` is the one
thing that gets past it, so that both parsers end properly exactly on the documents without one.
-/

namespace OrbitOps.AlarmPolicies
open Py Toml

def TOP_LEVEL_KEYS : List String :=
  ["schema_version", "name", "description", "temperature", "battery", "mode", "sequence"]
def REQUIRED_TOP_LEVEL_KEYS : List String :=
  ["schema_version", "name", "temperature", "battery", "mode", "sequence"]

def SECTION_KEYS : String → List String
  | "temperature" => ["warning_c", "critical_c", "hysteresis_c"]
  | "battery" => ["critical_v", "hysteresis_v"]
  | "mode" => ["alarm_on_safe"]
  | "sequence" => ["detect_gaps"]
  | _ => []

/-- `AlarmPolicyValidationError`, with the source in front of its text. -/
def validationError (source message : String) : PyError := ⟨.alarmPolicyValidationError, source ++ ": " ++ message⟩

def validateKeys (table : Table) (expected : List String) (source sectionName : String) : Result Unit := do
  rejectUnknown (validationError source) (sectionName ++ " ") expected table
  rejectMissing (validationError source) (sectionName ++ " ") expected table

def requireTable (document : Table) (key source : String) : Result Table := do
  let table ← getItem document key >>= asTable (validationError source) key
  validateKeys table (SECTION_KEYS key) source key
  return table

def requireInt (table : Table) (key : String) : Result Int := getItem table key >>= asInt key

def requireReal (table : Table) (sectionName key : String) : Result Float64 :=
  getItem table key >>= asReal (sectionName ++ "." ++ key)

def requireBool (table : Table) (sectionName key : String) : Result Bool :=
  getItem table key >>= asBool (sectionName ++ "." ++ key)

def readTemperature (temperature : Table) : Result (TemperatureAlarmPolicy Float64) := do
  let warningC ← requireReal temperature "temperature" "warning_c"
  let criticalC ← requireReal temperature "temperature" "critical_c"
  let hysteresisC ← requireReal temperature "temperature" "hysteresis_c"
  TemperatureAlarmPolicy.new warningC criticalC hysteresisC

def readBattery (battery : Table) : Result (BatteryAlarmPolicy Float64) := do
  let criticalV ← requireReal battery "battery" "critical_v"
  let hysteresisV ← requireReal battery "battery" "hysteresis_v"
  BatteryAlarmPolicy.new criticalV hysteresisV

/-- The fields of a document whose keys were checked. -/
def readPolicy (document temperature battery mode sequence : Table) : Result (AlarmPolicy Float64) := do
  let schemaVersion ← requireInt document "schema_version"
  let name ← requireString document "name"
  let description ← readOptionalString document "description"
  let temperature ← readTemperature temperature
  let battery ← readBattery battery
  let alarmOnSafe ← requireBool mode "mode" "alarm_on_safe"
  let detectGaps ← requireBool sequence "sequence" "detect_gaps"
  AlarmPolicy.new (.int schemaVersion) (.str name) (descriptionJson description) temperature battery
    ⟨alarmOnSafe⟩ ⟨detectGaps⟩

def policyFromMapping (document : Table) (source : String) : Result (AlarmPolicy Float64) := do
  rejectUnknown (validationError source) "top-level " TOP_LEVEL_KEYS document
  rejectMissing (validationError source) "" REQUIRED_TOP_LEVEL_KEYS document
  let temperature ← requireTable document "temperature" source
  let battery ← requireTable document "battery" source
  let mode ← requireTable document "mode" source
  let sequence ← requireTable document "sequence" source
  reraise (fun exc => validationError source exc.message) (readPolicy document temperature battery mode sequence)

/-- `parse_alarm_policy`, for a `tomllib.loads` that gives the document or the text of a `TOMLDecodeError`. -/
def parseAlarmPolicy (loads : String → Except String Table) (document source : String) :
    Result (AlarmPolicy Float64) :=
  if source.isEmpty then .error (valueError "source must not be empty")
  else
    match loads document with
    | .error exc => .error ⟨.alarmPolicyParseError, source ++ ": invalid TOML: " ++ exc⟩
    | .ok parsed => policyFromMapping parsed source

/-! ### What a document describes -/

/-- A section of a document, with exactly its keys. -/
structure HasSection (document : Table) (key : String) (table : Table) : Prop where
  lookup : lookupKey document key = some (.table table)
  known : ∀ kv ∈ table, kv.1 ∈ SECTION_KEYS key
  required : ∀ k ∈ SECTION_KEYS key, ∃ v, lookupKey table k = some v

/-- The double of the number under a key. -/
def realAt (table : Table) (key : String) : Option Float64 := (lookupKey table key).bind real?

structure ReadsTemperature (table : Table) (temperature : TemperatureAlarmPolicy Float64) : Prop where
  warningC : realAt table "warning_c" = some temperature.warningC
  criticalC : realAt table "critical_c" = some temperature.criticalC
  hysteresisC : realAt table "hysteresis_c" = some temperature.hysteresisC

structure ReadsBattery (table : Table) (battery : BatteryAlarmPolicy Float64) : Prop where
  criticalV : realAt table "critical_v" = some battery.criticalV
  hysteresisV : realAt table "hysteresis_v" = some battery.hysteresisV

/-- A document with known keys and the fields of a policy; what their values have to satisfy is in `AlarmPolicy`. -/
structure DescribesPolicy (document : Table) (policy : AlarmPolicy Float64) : Prop where
  keys : ∀ kv ∈ document, kv.1 ∈ TOP_LEVEL_KEYS
  schemaVersion : lookupKey document "schema_version" = some (.int 1)
  name : lookupKey document "name" = some (.str policy.name)
  description : lookupKey document "description" = policy.description.map .str
  temperature : ∃ table, HasSection document "temperature" table ∧ ReadsTemperature table policy.temperature
  battery : ∃ table, HasSection document "battery" table ∧ ReadsBattery table policy.battery
  mode : ∃ table, HasSection document "mode" table ∧
    lookupKey table "alarm_on_safe" = some (.bool policy.mode.alarmOnSafe)
  sequence : ∃ table, HasSection document "sequence" table ∧
    lookupKey table "detect_gaps" = some (.bool policy.sequence.detectGaps)

/-- The values of a section, in the order in which they are converted. -/
def sectionItems (key : String) (table : Table) : List Toml := (SECTION_KEYS key).filterMap (lookupKey table)

/-- The parser gets as far as the thresholds, and one of them is an integer too large for `float`. -/
structure PolicyOverflows (document : Table) : Prop where
  keys : ∀ kv ∈ document, kv.1 ∈ TOP_LEVEL_KEYS
  schemaVersion : ∃ n, lookupKey document "schema_version" = some (.int n)
  name : ∃ s, lookupKey document "name" = some (.str s)
  description : ∃ s : Option String, lookupKey document "description" = s.map .str
  mode : ∃ table, HasSection document "mode" table
  sequence : ∃ table, HasSection document "sequence" table
  thresholds : ∃ temperature battery, HasSection document "temperature" temperature ∧
    HasSection document "battery" battery ∧
    (Overflows (sectionItems "temperature" temperature) ∨
      (∃ t, ReadsTemperature temperature t) ∧ Overflows (sectionItems "battery" battery))

/-! ### The parser returns what the document describes -/

section
variable {table : Table} {key sectionName : String}

theorem requireInt_eq_ok {n : Int} : requireInt table key = .ok n ↔ lookupKey table key = some (.int n) := by
  rw [requireInt, except_bind_eq_ok]
  constructor
  · rintro ⟨v, hv, h⟩
    rw [getItem_eq_ok.mp hv, asInt_eq_ok.mp h]
  · exact fun h => ⟨_, getItem_eq_ok.mpr h, rfl⟩

theorem requireBool_eq_ok {b : Bool} :
    requireBool table sectionName key = .ok b ↔ lookupKey table key = some (.bool b) := by
  rw [requireBool, except_bind_eq_ok]
  constructor
  · rintro ⟨v, hv, h⟩
    rw [getItem_eq_ok.mp hv, asBool_eq_ok.mp h]
  · exact fun h => ⟨_, getItem_eq_ok.mpr h, rfl⟩

theorem requireReal_eq_ok {x : Float64} : requireReal table sectionName key = .ok x ↔ realAt table key = some x := by
  rw [requireReal, except_bind_eq_ok, realAt, Option.bind_eq_some_iff]
  constructor
  · rintro ⟨v, hv, h⟩
    exact ⟨v, getItem_eq_ok.mp hv, asReal_eq_ok.mp h⟩
  · rintro ⟨v, hv, h⟩
    exact ⟨v, getItem_eq_ok.mpr hv, asReal_eq_ok.mpr h⟩

theorem requireReal_of_lookup {v : Toml} (h : lookupKey table key = some v) :
    requireReal table sectionName key = asReal (sectionName ++ "." ++ key) v := by
  rw [requireReal, getItem_eq_ok.mpr h]
  rfl

end

theorem requireTable_eq_ok {document table : Table} {key source : String} :
    requireTable document key source = .ok table ↔ HasSection document key table := by
  constructor
  · intro h
    obtain ⟨table, htable, h⟩ := except_bind_eq_ok.mp h
    obtain ⟨v, hv, htable⟩ := except_bind_eq_ok.mp htable
    obtain ⟨⟨⟩, hkeys, h⟩ := except_bind_eq_ok.mp h
    obtain ⟨⟨⟩, hunknown, hmissing⟩ := except_bind_eq_ok.mp hkeys
    cases h
    cases asTable_eq_ok.mp htable
    exact ⟨getItem_eq_ok.mp hv, rejectUnknown_eq_ok.mp hunknown, rejectMissing_eq_ok.mp hmissing⟩
  · intro h
    refine except_bind_eq_ok.mpr
      ⟨table, except_bind_eq_ok.mpr ⟨_, getItem_eq_ok.mpr h.lookup, asTable_eq_ok.mpr rfl⟩, ?_⟩
    refine except_bind_eq_ok.mpr ⟨(), ?_, rfl⟩
    exact except_bind_eq_ok.mpr ⟨(), rejectUnknown_eq_ok.mpr h.known, rejectMissing_eq_ok.mpr h.required⟩

theorem readTemperature_eq_ok {table : Table} {t : TemperatureAlarmPolicy Float64} :
    readTemperature table = .ok t ↔ ReadsTemperature table t := by
  constructor
  · intro h
    obtain ⟨w, hw, h⟩ := except_bind_eq_ok.mp h
    obtain ⟨c, hc, h⟩ := except_bind_eq_ok.mp h
    obtain ⟨y, hy, h⟩ := except_bind_eq_ok.mp h
    obtain ⟨rfl, rfl, rfl⟩ := TemperatureAlarmPolicy.new_eq_ok.mp h
    exact ⟨requireReal_eq_ok.mp hw, requireReal_eq_ok.mp hc, requireReal_eq_ok.mp hy⟩
  · intro h
    refine except_bind_eq_ok.mpr ⟨_, requireReal_eq_ok.mpr h.warningC, ?_⟩
    refine except_bind_eq_ok.mpr ⟨_, requireReal_eq_ok.mpr h.criticalC, ?_⟩
    refine except_bind_eq_ok.mpr ⟨_, requireReal_eq_ok.mpr h.hysteresisC, ?_⟩
    exact TemperatureAlarmPolicy.new_eq_ok.mpr ⟨rfl, rfl, rfl⟩

theorem readBattery_eq_ok {table : Table} {b : BatteryAlarmPolicy Float64} :
    readBattery table = .ok b ↔ ReadsBattery table b := by
  constructor
  · intro h
    obtain ⟨c, hc, h⟩ := except_bind_eq_ok.mp h
    obtain ⟨y, hy, h⟩ := except_bind_eq_ok.mp h
    obtain ⟨rfl, rfl⟩ := BatteryAlarmPolicy.new_eq_ok.mp h
    exact ⟨requireReal_eq_ok.mp hc, requireReal_eq_ok.mp hy⟩
  · intro h
    refine except_bind_eq_ok.mpr ⟨_, requireReal_eq_ok.mpr h.criticalV, ?_⟩
    refine except_bind_eq_ok.mpr ⟨_, requireReal_eq_ok.mpr h.hysteresisV, ?_⟩
    exact BatteryAlarmPolicy.new_eq_ok.mpr ⟨rfl, rfl⟩

theorem rejectMissing_topLevel {document temperature battery mode sequence : Table} {source : String}
    (hversion : ∃ v, lookupKey document "schema_version" = some v) (hname : ∃ v, lookupKey document "name" = some v)
    (htemperature : HasSection document "temperature" temperature) (hbattery : HasSection document "battery" battery)
    (hmode : HasSection document "mode" mode) (hsequence : HasSection document "sequence" sequence) :
    rejectMissing (validationError source) "" REQUIRED_TOP_LEVEL_KEYS document = .ok () := by
  rw [rejectMissing_eq_ok]
  simp only [REQUIRED_TOP_LEVEL_KEYS, List.forall_mem_cons, List.not_mem_nil, false_imp_iff, implies_true, and_true]
  exact ⟨hversion, hname, ⟨_, htemperature.lookup⟩, ⟨_, hbattery.lookup⟩, ⟨_, hmode.lookup⟩, ⟨_, hsequence.lookup⟩⟩

/-- A policy is returned exactly for a document that describes it. -/
theorem policyFromMapping_eq_ok {document : Table} {source : String} {p : AlarmPolicy Float64} :
    policyFromMapping document source = .ok p ↔ DescribesPolicy document p := by
  constructor
  · intro h
    obtain ⟨⟨⟩, hknown, h⟩ := except_bind_eq_ok.mp h
    obtain ⟨⟨⟩, -, h⟩ := except_bind_eq_ok.mp h
    obtain ⟨temperature, htemperature, h⟩ := except_bind_eq_ok.mp h
    obtain ⟨battery, hbattery, h⟩ := except_bind_eq_ok.mp h
    obtain ⟨mode, hmode, h⟩ := except_bind_eq_ok.mp h
    obtain ⟨sequence, hsequence, h⟩ := except_bind_eq_ok.mp h
    obtain ⟨version, hversion, h⟩ := except_bind_eq_ok.mp (reraise_eq_ok.mp h)
    obtain ⟨name, hname, h⟩ := except_bind_eq_ok.mp h
    obtain ⟨description, hdescription, h⟩ := except_bind_eq_ok.mp h
    obtain ⟨t, ht, h⟩ := except_bind_eq_ok.mp h
    obtain ⟨b, hb, h⟩ := except_bind_eq_ok.mp h
    obtain ⟨safe, hsafe, h⟩ := except_bind_eq_ok.mp h
    obtain ⟨gaps, hgaps, h⟩ := except_bind_eq_ok.mp h
    obtain ⟨hversion', hname', hdescription', rfl, rfl, hmode', hsequence'⟩ := AlarmPolicy.new_eq_ok.mp h
    cases hversion'
    cases hname'
    cases Profiles.descriptionJson_injective hdescription'
    exact {
      keys := rejectUnknown_eq_ok.mp hknown
      schemaVersion := requireInt_eq_ok.mp hversion
      name := requireString_eq_ok.mp hname
      description := readOptionalString_eq_ok.mp hdescription
      temperature := ⟨temperature, requireTable_eq_ok.mp htemperature, readTemperature_eq_ok.mp ht⟩
      battery := ⟨battery, requireTable_eq_ok.mp hbattery, readBattery_eq_ok.mp hb⟩
      mode := ⟨mode, requireTable_eq_ok.mp hmode, by rw [← hmode']; exact requireBool_eq_ok.mp hsafe⟩
      sequence := ⟨sequence, requireTable_eq_ok.mp hsequence, by rw [← hsequence']; exact requireBool_eq_ok.mp hgaps⟩ }
  · intro h
    obtain ⟨temperature, htemperature, ht⟩ := h.temperature
    obtain ⟨battery, hbattery, hb⟩ := h.battery
    obtain ⟨mode, hmode, hsafe⟩ := h.mode
    obtain ⟨sequence, hsequence, hgaps⟩ := h.sequence
    refine except_bind_eq_ok.mpr ⟨(), rejectUnknown_eq_ok.mpr h.keys, ?_⟩
    refine except_bind_eq_ok.mpr ⟨(), rejectMissing_topLevel ⟨_, h.schemaVersion⟩ ⟨_, h.name⟩ htemperature hbattery hmode
      hsequence, ?_⟩
    refine except_bind_eq_ok.mpr ⟨_, requireTable_eq_ok.mpr htemperature, ?_⟩
    refine except_bind_eq_ok.mpr ⟨_, requireTable_eq_ok.mpr hbattery, ?_⟩
    refine except_bind_eq_ok.mpr ⟨_, requireTable_eq_ok.mpr hmode, ?_⟩
    refine except_bind_eq_ok.mpr ⟨_, requireTable_eq_ok.mpr hsequence, reraise_eq_ok.mpr ?_⟩
    refine except_bind_eq_ok.mpr ⟨_, requireInt_eq_ok.mpr h.schemaVersion, ?_⟩
    refine except_bind_eq_ok.mpr ⟨_, requireString_eq_ok.mpr h.name, ?_⟩
    refine except_bind_eq_ok.mpr ⟨_, readOptionalString_eq_ok.mpr h.description, ?_⟩
    refine except_bind_eq_ok.mpr ⟨_, readTemperature_eq_ok.mpr ht, ?_⟩
    refine except_bind_eq_ok.mpr ⟨_, readBattery_eq_ok.mpr hb, ?_⟩
    refine except_bind_eq_ok.mpr ⟨_, requireBool_eq_ok.mpr hsafe, ?_⟩
    refine except_bind_eq_ok.mpr ⟨_, requireBool_eq_ok.mpr hgaps, ?_⟩
    exact AlarmPolicy.new_eq_ok.mpr ⟨rfl, rfl, rfl, rfl, rfl, rfl, rfl⟩

/-! ### What gets past the parser -/

theorem isTypeOrValueError_validationError (source message : String) :
    (validationError source message).isTypeOrValueError = true := rfl

theorem catchable_requireTable {document : Table} {key source : String}
    (h : ∃ v, lookupKey document key = some v) : Catchable (requireTable document key source) := by
  have hcls := isTypeOrValueError_validationError source
  refine ((catchable_getItem h).bind (catchable_asTable hcls)).bind fun table => ?_
  exact ((catchable_rejectUnknown hcls).bind fun _ => catchable_rejectMissing hcls).bind fun _ => catchable_ok _

theorem catchable_requireInt {table : Table} {key : String} (h : ∃ v, lookupKey table key = some v) :
    Catchable (requireInt table key) :=
  (catchable_getItem h).bind catchable_asInt

theorem catchable_requireBool {table : Table} {sectionName key : String} (h : ∃ v, lookupKey table key = some v) :
    Catchable (requireBool table sectionName key) :=
  (catchable_getItem h).bind catchable_asBool

theorem catchable_readTemperature_iff {document table : Table} (h : HasSection document "temperature" table) :
    Catchable (readTemperature table) ↔ ¬Overflows (sectionItems "temperature" table) := by
  obtain ⟨w, hw⟩ := h.required "warning_c" (by simp [SECTION_KEYS])
  obtain ⟨c, hc⟩ := h.required "critical_c" (by simp [SECTION_KEYS])
  obtain ⟨y, hy⟩ := h.required "hysteresis_c" (by simp [SECTION_KEYS])
  have hitems : sectionItems "temperature" table = [w, c, y] := by
    simp [sectionItems, SECTION_KEYS, hw, hc, hy]
  rw [hitems, readTemperature, requireReal_of_lookup hw, requireReal_of_lookup hc, requireReal_of_lookup hy]
  refine catchable_asReal_bind fun warningC _ => ?_
  refine catchable_asReal_bind fun criticalC _ => ?_
  refine catchable_asReal_bind fun hysteresisC _ => ?_
  exact iff_of_true (TemperatureAlarmPolicy.catchable_new _ _ _) not_false

theorem catchable_readBattery_iff {document table : Table} (h : HasSection document "battery" table) :
    Catchable (readBattery table) ↔ ¬Overflows (sectionItems "battery" table) := by
  obtain ⟨c, hc⟩ := h.required "critical_v" (by simp [SECTION_KEYS])
  obtain ⟨y, hy⟩ := h.required "hysteresis_v" (by simp [SECTION_KEYS])
  have hitems : sectionItems "battery" table = [c, y] := by
    simp [sectionItems, SECTION_KEYS, hc, hy]
  rw [hitems, readBattery, requireReal_of_lookup hc, requireReal_of_lookup hy]
  refine catchable_asReal_bind fun criticalV _ => ?_
  refine catchable_asReal_bind fun hysteresisV _ => ?_
  exact iff_of_true (BatteryAlarmPolicy.catchable_new _ _) not_false

/-- Nothing but the overflow of a threshold gets past the parser. -/
theorem catchable_policyFromMapping_iff {document : Table} {source : String} :
    Catchable (policyFromMapping document source) ↔ ¬PolicyOverflows document := by
  have hcls := isTypeOrValueError_validationError source
  constructor
  · intro h ho
    obtain ⟨temperature, battery, htemperature, hbattery, hover⟩ := ho.thresholds
    obtain ⟨mode, hmode⟩ := ho.mode
    obtain ⟨sequence, hsequence⟩ := ho.sequence
    obtain ⟨version, hversion⟩ := ho.schemaVersion
    obtain ⟨name, hname⟩ := ho.name
    obtain ⟨description, hdescription⟩ := ho.description
    have h := (catchable_bind_iff.mp h).2 () (rejectUnknown_eq_ok.mpr ho.keys)
    have h := (catchable_bind_iff.mp h).2 () (rejectMissing_topLevel ⟨_, hversion⟩ ⟨_, hname⟩ htemperature hbattery hmode
      hsequence)
    have h := (catchable_bind_iff.mp h).2 _ (requireTable_eq_ok.mpr htemperature)
    have h := (catchable_bind_iff.mp h).2 _ (requireTable_eq_ok.mpr hbattery)
    have h := (catchable_bind_iff.mp h).2 _ (requireTable_eq_ok.mpr hmode)
    have h := (catchable_bind_iff.mp h).2 _ (requireTable_eq_ok.mpr hsequence)
    have h := (catchable_reraise_iff fun _ => hcls _).mp h
    have h := (catchable_bind_iff.mp h).2 _ (requireInt_eq_ok.mpr hversion)
    have h := (catchable_bind_iff.mp h).2 _ (requireString_eq_ok.mpr hname)
    have h := (catchable_bind_iff.mp h).2 _ (readOptionalString_eq_ok.mpr hdescription)
    rcases hover with hover | ⟨⟨t, ht⟩, hover⟩
    · exact (catchable_readTemperature_iff htemperature).mp (catchable_bind_iff.mp h).1 hover
    · have h := (catchable_bind_iff.mp h).2 t (readTemperature_eq_ok.mpr ht)
      exact (catchable_readBattery_iff hbattery).mp (catchable_bind_iff.mp h).1 hover
  · intro hno
    refine catchable_bind_iff.mpr ⟨catchable_rejectUnknown hcls, fun _ hkeys => ?_⟩
    refine catchable_bind_iff.mpr ⟨catchable_rejectMissing hcls, fun _ hrequired => ?_⟩
    have hhas (k : String) (hk : k ∈ REQUIRED_TOP_LEVEL_KEYS) : ∃ v, lookupKey document k = some v :=
      rejectMissing_eq_ok.mp hrequired k hk
    refine catchable_bind_iff.mpr ⟨catchable_requireTable (hhas _ (by simp [REQUIRED_TOP_LEVEL_KEYS])), ?_⟩
    intro temperature htemperature
    refine catchable_bind_iff.mpr ⟨catchable_requireTable (hhas _ (by simp [REQUIRED_TOP_LEVEL_KEYS])), ?_⟩
    intro battery hbattery
    refine catchable_bind_iff.mpr ⟨catchable_requireTable (hhas _ (by simp [REQUIRED_TOP_LEVEL_KEYS])), ?_⟩
    intro mode hmode
    refine catchable_bind_iff.mpr ⟨catchable_requireTable (hhas _ (by simp [REQUIRED_TOP_LEVEL_KEYS])), ?_⟩
    intro sequence hsequence
    refine (catchable_reraise_iff fun _ => hcls _).mpr ?_
    refine catchable_bind_iff.mpr ⟨catchable_requireInt (hhas _ (by simp [REQUIRED_TOP_LEVEL_KEYS])), ?_⟩
    intro version hversion
    refine catchable_bind_iff.mpr ⟨catchable_requireString (hhas _ (by simp [REQUIRED_TOP_LEVEL_KEYS])), ?_⟩
    intro name hname
    refine catchable_bind_iff.mpr ⟨catchable_readOptionalString, fun description hdescription => ?_⟩
    -- a document that got here overflows as soon as one of its thresholds does
    have hoverflows (h : Overflows (sectionItems "temperature" temperature) ∨
        (∃ t, ReadsTemperature temperature t) ∧ Overflows (sectionItems "battery" battery)) :
        PolicyOverflows document := {
      keys := rejectUnknown_eq_ok.mp hkeys
      schemaVersion := ⟨version, requireInt_eq_ok.mp hversion⟩
      name := ⟨name, requireString_eq_ok.mp hname⟩
      description := ⟨description, readOptionalString_eq_ok.mp hdescription⟩
      mode := ⟨mode, requireTable_eq_ok.mp hmode⟩
      sequence := ⟨sequence, requireTable_eq_ok.mp hsequence⟩
      thresholds := ⟨temperature, battery, requireTable_eq_ok.mp htemperature, requireTable_eq_ok.mp hbattery, h⟩ }
    refine catchable_bind_iff.mpr ⟨?_, fun t ht => ?_⟩
    · exact (catchable_readTemperature_iff (requireTable_eq_ok.mp htemperature)).mpr fun h => hno (hoverflows (.inl h))
    refine catchable_bind_iff.mpr ⟨?_, fun b _ => ?_⟩
    · exact (catchable_readBattery_iff (requireTable_eq_ok.mp hbattery)).mpr fun h =>
        hno (hoverflows (.inr ⟨⟨t, readTemperature_eq_ok.mp ht⟩, h⟩))
    have hsafe := (requireTable_eq_ok.mp hmode).required "alarm_on_safe" (by simp [SECTION_KEYS])
    have hgaps := (requireTable_eq_ok.mp hsequence).required "detect_gaps" (by simp [SECTION_KEYS])
    exact (catchable_requireBool hsafe).bind fun _ => (catchable_requireBool hgaps).bind fun _ =>
      AlarmPolicy.catchable_new _ _ _ _ _ _ _

theorem owned_policyFromMapping (document : Table) (source : String) :
    Owned .alarmPolicyValidationError (policyFromMapping document source) := by
  have hcls (text : String) : (validationError source text).cls = .alarmPolicyValidationError := rfl
  have htable (key : String) : Owned .alarmPolicyValidationError (requireTable document key source) :=
    (owned_getItem.bind (owned_asTable hcls)).bind fun _ =>
      ((owned_rejectUnknown hcls).bind fun _ => owned_rejectMissing hcls).bind fun _ => owned_ok _
  exact (owned_rejectUnknown hcls).bind fun _ => (owned_rejectMissing hcls).bind fun _ =>
    (htable _).bind fun _ => (htable _).bind fun _ => (htable _).bind fun _ => (htable _).bind fun _ =>
    owned_reraise (fun _ => hcls _) _

/-- The alarm-policy parser ends properly on every document but those with a threshold that is too large. -/
theorem proper_parseAlarmPolicy_iff {loads : String → Except String Table} {text source : String} {document : Table}
    (hsource : source ≠ "") (hloads : loads text = .ok document) :
    Proper (DescribesPolicy document) .alarmPolicyValidationError (parseAlarmPolicy loads text source) ↔
      ¬PolicyOverflows document := by
  have hparse : parseAlarmPolicy loads text source = policyFromMapping document source := by
    rw [parseAlarmPolicy, if_neg (by rwa [String.isEmpty_iff]), hloads]
  have hcatchable : Catchable (policyFromMapping document source) ↔ ¬PolicyOverflows document :=
    catchable_policyFromMapping_iff
  rw [hparse, ← hcatchable]
  exact proper_iff_catchable (fun _ => policyFromMapping_eq_ok) (fun _ => rfl) (owned_policyFromMapping _ _)

end OrbitOps.AlarmPolicies

namespace OrbitOps
open Py Toml Profiles AlarmPolicies

/-- Either parser returns exactly the models that documents describe and otherwise raises its own validation error,
unless it converts an integer that is too large for `float`. -/
theorem parsers_proper_iff (loads : String → Except String Table) (text source : String) (document : Table)
    (hsource : source ≠ "") (hloads : loads text = .ok document) :
    (Proper (DescribesProfile document) .missionProfileValidationError (parseMissionProfile loads text source) ↔
        ¬ProfileOverflows document) ∧
      (Proper (DescribesPolicy document) .alarmPolicyValidationError (parseAlarmPolicy loads text source) ↔
        ¬PolicyOverflows document) :=
  ⟨proper_parseMissionProfile_iff hsource hloads, proper_parseAlarmPolicy_iff hsource hloads⟩

/-- The document `schema_version = 1`, `name = "x"` and a link table with this loss rate. -/
def lossDocument (lossRate : Int) : Table :=
  [("schema_version", .int 1), ("name", .str "x"), ("link", .table [("loss_rate", .int lossRate)])]

/-- The text of that document, for the digits of the rate. -/
def lossText (digits : String) : String :=
  "schema_version = 1\nname = \"x\"\n[link]\nloss_rate = " ++ digits ++ "\n"

/-- A document whose rate is 1 does not overflow, and it is no alarm policy. -/
theorem parsers_proper_iff_certain_loss :
    Proper (DescribesProfile (lossDocument 1)) .missionProfileValidationError
        (parseMissionProfile (fun _ => .ok (lossDocument 1)) (lossText "1") "<memory>") ∧
      Proper (DescribesPolicy (lossDocument 1)) .alarmPolicyValidationError
        (parseAlarmPolicy (fun _ => .ok (lossDocument 1)) (lossText "1") "<memory>") := by
  have h := parsers_proper_iff (fun _ => .ok (lossDocument 1)) (lossText "1") "<memory>" (lossDocument 1)
    (by decide) rfl
  refine ⟨h.1.mpr fun ho => ?_, h.2.mpr fun ho => ?_⟩
  · obtain ⟨link, hlink, -, -, hover⟩ := ho.link
    cases hlink
    have hone : Float64.ofInt? 1 = some Link.oneFloat := by decide +kernel
    simp [rateItems, Table.getD, lookupKey, Overflows, TooLarge, hone] at hover
  · obtain ⟨table, htable⟩ := ho.mode
    cases htable.lookup

/-- The rate `10 ** 400`, written as an integer, gets past the profile parser. -/
theorem parsers_not_proper :
    ¬∀ (loads : String → Except String Table) (text source : String) (document : Table),
      source ≠ "" → loads text = .ok document →
        Proper (DescribesProfile document) .missionProfileValidationError (parseMissionProfile loads text source) ∧
          Proper (DescribesPolicy document) .alarmPolicyValidationError (parseAlarmPolicy loads text source) := by
  intro h
  have hproper := (h (fun _ => .ok (lossDocument (10 ^ 400)))
    (lossText ("1" ++ String.ofList (List.replicate 400 '0'))) "<memory>" _ (by decide) rfl).1
  refine (proper_parseMissionProfile_iff (by decide) rfl).mp hproper ?_
  have hlarge : Float64.ofInt? (10 ^ 400) = none := by decide +kernel
  exact {
    keys := by simp [lossDocument, Profiles.TOP_LEVEL_KEYS]
    schemaVersion := ⟨1, rfl⟩
    name := ⟨"x", rfl⟩
    description := ⟨none, rfl⟩
    link := ⟨[("loss_rate", .int (10 ^ 400))], rfl, by simp [LINK_KEYS], ⟨0, rfl⟩, .inl hlarge⟩ }

end OrbitOps
