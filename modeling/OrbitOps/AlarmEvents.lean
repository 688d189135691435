import OrbitOps.Alarms
import OrbitOps.Py.Printable

/-!
# Alarm events

The JSONL contract of one alarm-observation run: metadata, then transitions, then a summary. An
`AlarmEvent` can only hold what its constructor accepts; the loader accepts a file exactly when its
non-blank lines decode to events of which each may follow the ones before (`AlarmEvent.Next`) and a
final summary counts them.
-/

namespace OrbitOps
open Py

def ALARM_EVENT_SCHEMA_VERSION : Nat := 1
def MAX_PACKET_SEQUENCE : Nat := 0xFFFFFFFF

/-- Record types of one alarm-observation run. -/
inductive AlarmEventType where
  | RUN_METADATA
  | ALARM_RAISED
  | ALARM_UPDATED
  | ALARM_CLEARED
  | RUN_SUMMARY
deriving DecidableEq, Repr

namespace AlarmEventType

def value : AlarmEventType → String
  | RUN_METADATA => "run_metadata"
  | ALARM_RAISED => "alarm_raised"
  | ALARM_UPDATED => "alarm_updated"
  | ALARM_CLEARED => "alarm_cleared"
  | RUN_SUMMARY => "run_summary"

def all : List AlarmEventType := [RUN_METADATA, ALARM_RAISED, ALARM_UPDATED, ALARM_CLEARED, RUN_SUMMARY]

def ofValue (s : String) : Result AlarmEventType :=
  match all.find? fun t => t.value == s with
  | some t => .ok t
  | none => .error (valueError (reprText s ++ " is not a valid AlarmEventType"))

/-- `_EVENT_TYPE_BY_TRANSITION[transition]`. -/
def ofTransition : AlarmTransitionType → AlarmEventType
  | .RAISED => ALARM_RAISED
  | .UPDATED => ALARM_UPDATED
  | .CLEARED => ALARM_CLEARED

/-- `event_type in _TRANSITION_EVENT_TYPES`. -/
def isTransition : AlarmEventType → Bool
  | ALARM_RAISED | ALARM_UPDATED | ALARM_CLEARED => true
  | RUN_METADATA | RUN_SUMMARY => false

@[simp] theorem ofValue_value (t : AlarmEventType) : ofValue t.value = .ok t := by
  cases t <;> rfl

theorem value_injective : Function.Injective value := fun a b h => by
  have hb := ofValue_value a
  rw [h, ofValue_value b] at hb
  exact (Except.ok.inj hb).symm

theorem catchable_ofValue (s : String) : Catchable (ofValue s) := by
  unfold ofValue
  split <;> simp

@[simp] theorem isTransition_ofTransition (t : AlarmTransitionType) : (ofTransition t).isTransition = true := by
  cases t <;> rfl

end AlarmEventType

/-- `AlarmSeverity(value)` with the error of the event contract. -/
def AlarmSeverity.ofValue (s : String) : Result AlarmSeverity :=
  if s = "warning" then .ok .WARNING
  else if s = "critical" then .ok .CRITICAL
  else .error (valueError ("unsupported alarm severity " ++ reprText s))

@[simp] theorem AlarmSeverity.ofValue_value (s : AlarmSeverity) : ofValue s.value = .ok s := by
  cases s <;> rfl

/-- The error of attributes with other keys than expected. -/
def invalidKeys (what : String) (expected : List String) (items : List (String × Scalar)) : PyError :=
  valueError ("invalid " ++ what ++ " keys: missing=" ++ reprTexts (missingKeys expected items) ++ ", extra=" ++
    reprTexts (extraKeys expected items))

/-! ### Run metadata -/

/-- Policy identity and reproducibility evidence for one alarm run. -/
structure AlarmRunMetadata where
  policyName : VisibleText
  policyReference : VisibleText
  policySchemaVersion : Nat
  policyFingerprint : String
  version_pos : 0 < policySchemaVersion
  fingerprint_ok : isFingerprint policyFingerprint = true
deriving DecidableEq

namespace AlarmRunMetadata

def new (policyName policyReference policySchemaVersion policyFingerprint : Json) : Result AlarmRunMetadata := do
  let policyName ← validateNonEmptyString "policy_name" policyName
  let policyReference ← validateNonEmptyString "policy_reference" policyReference
  let schemaVersion ← validateNonNegativeInt "policy_schema_version" policySchemaVersion
  if hv : 0 < schemaVersion then
    match policyFingerprint with
    | .str fingerprint =>
      if hf : isFingerprint fingerprint = true then
        .ok ⟨policyName, policyReference, schemaVersion, fingerprint, hv, hf⟩
      else .error (valueError "policy_fingerprint must use sha256:<64 lowercase hex digits>")
    | _ => .error (typeError "policy_fingerprint must be a string")
  else .error (valueError "policy_schema_version must be positive")

def fromPolicy (policy : AlarmPolicy Float64) (reference : String) : Result AlarmRunMetadata :=
  new (.str policy.name) (.str reference) (.int policy.schemaVersion) (.str (alarmPolicyFingerprint policy))

def attributeKeys : List String :=
  ["policy_fingerprint", "policy_name", "policy_reference", "policy_schema_version"]

def toItems (m : AlarmRunMetadata) : List (String × Scalar) :=
  [("policy_fingerprint", .str m.policyFingerprint), ("policy_name", .str m.policyName.text),
    ("policy_reference", .str m.policyReference.text), ("policy_schema_version", .int m.policySchemaVersion)]

theorem valid_toItems (m : AlarmRunMetadata) : ∀ kv ∈ m.toItems, ValidItem kv := by
  simp [toItems, ValidItem]

def toAttributes (m : AlarmRunMetadata) : Attributes := .ofItems m.toItems m.valid_toItems

def fromAttributes (attributes : Json) : Result AlarmRunMetadata := do
  let validated ← validateAttributes attributes
  if hasKeys attributeKeys validated.dict.items then do
    let name ← validateNonEmptyString "policy_name" (validated.get "policy_name").toJson
    let reference ← validateNonEmptyString "policy_reference" (validated.get "policy_reference").toJson
    let fingerprint ← validateNonEmptyString "policy_fingerprint" (validated.get "policy_fingerprint").toJson
    let schemaVersion ← validateNonNegativeInt "policy_schema_version" (validated.get "policy_schema_version").toJson
    new (.str name.text) (.str reference.text) (.int schemaVersion) (.str fingerprint.text)
  else .error (invalidKeys "run_metadata" attributeKeys validated.dict.items)

theorem items_toAttributes (m : AlarmRunMetadata) : m.toAttributes.dict.items = m.toItems :=
  Attributes.items_ofItems_of_keys attributeKeys rfl (by decide)

theorem new_self (m : AlarmRunMetadata) : new (.str m.policyName.text) (.str m.policyReference.text)
    (.int m.policySchemaVersion) (.str m.policyFingerprint) = .ok m := by
  simp only [new, validateNonEmptyString_text, validateNonNegativeInt_nat, bind, Except.bind, m.version_pos,
    m.fingerprint_ok, ↓reduceDIte]

theorem exists_visible_fingerprint (m : AlarmRunMetadata) : ∃ v : VisibleText, v.text = m.policyFingerprint := by
  have hok := m.fingerprint_ok
  simp only [isFingerprint, Bool.and_eq_true, beq_iff_eq, List.all_eq_true, Bool.or_eq_true, decide_eq_true_eq] at hok
  obtain ⟨⟨htake, -⟩, hall⟩ := hok
  have htext : m.policyFingerprint.toList = "sha256:".toList ++ m.policyFingerprint.toList.drop 7 := by
    rw [← htake, List.take_append_drop]
  refine ⟨⟨m.policyFingerprint, ?_, ?_⟩, rfl⟩
  · refine not_isBlank_of_mem (c := 's') ?_ (by decide)
    rw [htext]
    exact List.mem_append_left _ (by decide)
  · rw [hasNul, Bool.eq_false_iff]
    intro hnul
    have hmem := List.contains_iff_mem.mp hnul
    rw [htext] at hmem
    rcases List.mem_append.mp hmem with h | h
    · revert h
      decide
    · have := hall _ h
      revert this
      decide

@[simp] theorem fromAttributes_toAttributes (m : AlarmRunMetadata) : fromAttributes m.toAttributes.toJson = .ok m := by
  have hkeys : hasKeys attributeKeys m.toItems = true := rfl
  have hget (key : String) : m.toAttributes.get key = (lookupKey m.toItems key).getD .none := by
    rw [Attributes.get, Dict.get?, items_toAttributes]
  have hname : m.toAttributes.get "policy_name" = .str m.policyName.text := by rw [hget]; rfl
  have href : m.toAttributes.get "policy_reference" = .str m.policyReference.text := by rw [hget]; rfl
  have hfp : m.toAttributes.get "policy_fingerprint" = .str m.policyFingerprint := by rw [hget]; rfl
  have hver : m.toAttributes.get "policy_schema_version" = .int m.policySchemaVersion := by rw [hget]; rfl
  obtain ⟨fp, hfptext⟩ := m.exists_visible_fingerprint
  rw [fromAttributes, validateAttributes_toJson]
  simp only [bind, Except.bind, items_toAttributes, hkeys, ↓reduceIte, hname, href, hfp, hver, Scalar.toJson,
    validateNonEmptyString_text, validateNonNegativeInt_nat, ← hfptext]
  rw [hfptext]
  exact m.new_self

theorem catchable_new (policyName policyReference policySchemaVersion policyFingerprint : Json) :
    Catchable (new policyName policyReference policySchemaVersion policyFingerprint) := by
  refine (catchable_validateNonEmptyString _ _).bind fun _ => (catchable_validateNonEmptyString _ _).bind fun _ =>
    (catchable_validateNonNegativeInt _ _).bind fun v => ?_
  split_ifs
  · split
    · split_ifs <;> simp
    · simp
  · simp

theorem catchable_fromAttributes (attributes : Json) : Catchable (fromAttributes attributes) := by
  refine (catchable_validateAttributes _).bind fun a => ?_
  split_ifs
  · exact (catchable_validateNonEmptyString _ _).bind fun _ => (catchable_validateNonEmptyString _ _).bind fun _ =>
      (catchable_validateNonEmptyString _ _).bind fun _ => (catchable_validateNonNegativeInt _ _).bind fun _ =>
        catchable_new _ _ _ _
  · exact catchable_valueError _

/-- A policy and a visible reference have metadata. -/
theorem fromPolicy_ok (policy : AlarmPolicy Float64) {reference : String} (h : IsVisible reference) :
    ∃ m, fromPolicy policy reference = .ok m := by
  have hname := policy.name_visible
  have hm := new_self ⟨⟨policy.name, hname.1, hname.2⟩, ⟨reference, h.1, h.2⟩, 1, alarmPolicyFingerprint policy,
    by decide, isFingerprint_digest _⟩
  exact ⟨_, hm⟩

end AlarmRunMetadata

/-! ### Run statistics -/

/-- Recomputable alarm-transition counters. -/
structure AlarmRunStatistics where
  transitionsRaised : Nat := 0
  transitionsUpdated : Nat := 0
  transitionsCleared : Nat := 0
deriving DecidableEq, Repr

namespace AlarmRunStatistics

def transitionsTotal (s : AlarmRunStatistics) : Nat := s.transitionsRaised + s.transitionsUpdated + s.transitionsCleared

def withTransition (s : AlarmRunStatistics) : AlarmTransitionType → AlarmRunStatistics
  | .RAISED => { s with transitionsRaised := s.transitionsRaised + 1 }
  | .UPDATED => { s with transitionsUpdated := s.transitionsUpdated + 1 }
  | .CLEARED => { s with transitionsCleared := s.transitionsCleared + 1 }

def attributeKeys : List String :=
  ["transitions_cleared", "transitions_raised", "transitions_total", "transitions_updated"]

def toItems (s : AlarmRunStatistics) : List (String × Scalar) :=
  [("transitions_cleared", .int s.transitionsCleared), ("transitions_raised", .int s.transitionsRaised),
    ("transitions_total", .int s.transitionsTotal), ("transitions_updated", .int s.transitionsUpdated)]

theorem valid_toItems (s : AlarmRunStatistics) : ∀ kv ∈ s.toItems, ValidItem kv := by
  simp [toItems, ValidItem]

def toAttributes (s : AlarmRunStatistics) : Attributes := .ofItems s.toItems s.valid_toItems

def fromAttributes (attributes : Json) : Result AlarmRunStatistics := do
  let validated ← validateAttributes attributes
  if hasKeys attributeKeys validated.dict.items then do
    let raised ← validateNonNegativeInt "transitions_raised" (validated.get "transitions_raised").toJson
    let updated ← validateNonNegativeInt "transitions_updated" (validated.get "transitions_updated").toJson
    let cleared ← validateNonNegativeInt "transitions_cleared" (validated.get "transitions_cleared").toJson
    let total ← validateNonNegativeInt "transitions_total" (validated.get "transitions_total").toJson
    let statistics : AlarmRunStatistics := ⟨raised, updated, cleared⟩
    if total ≠ statistics.transitionsTotal then
      .error (valueError "transitions_total does not match raised + updated + cleared")
    else .ok statistics
  else .error (invalidKeys "run_summary" attributeKeys validated.dict.items)

theorem items_toAttributes (s : AlarmRunStatistics) : s.toAttributes.dict.items = s.toItems :=
  Attributes.items_ofItems_of_keys attributeKeys rfl (by decide)

@[simp] theorem fromAttributes_toAttributes (s : AlarmRunStatistics) :
    fromAttributes s.toAttributes.toJson = .ok s := by
  have hkeys : hasKeys attributeKeys s.toItems = true := rfl
  have hget (key : String) : s.toAttributes.get key = (lookupKey s.toItems key).getD .none := by
    rw [Attributes.get, Dict.get?, items_toAttributes]
  have hraised : s.toAttributes.get "transitions_raised" = .int s.transitionsRaised := by rw [hget]; rfl
  have hupdated : s.toAttributes.get "transitions_updated" = .int s.transitionsUpdated := by rw [hget]; rfl
  have hcleared : s.toAttributes.get "transitions_cleared" = .int s.transitionsCleared := by rw [hget]; rfl
  have htotal : s.toAttributes.get "transitions_total" = .int s.transitionsTotal := by rw [hget]; rfl
  rw [fromAttributes, validateAttributes_toJson]
  simp only [bind, Except.bind, items_toAttributes, hkeys, ↓reduceIte, hraised, hupdated, hcleared, htotal,
    Scalar.toJson, validateNonNegativeInt_nat]
  exact if_neg (not_not.mpr rfl)

theorem catchable_fromAttributes (attributes : Json) : Catchable (fromAttributes attributes) := by
  refine (catchable_validateAttributes _).bind fun a => ?_
  split_ifs
  · refine (catchable_validateNonNegativeInt _ _).bind fun _ => (catchable_validateNonNegativeInt _ _).bind fun _ =>
      (catchable_validateNonNegativeInt _ _).bind fun _ => (catchable_validateNonNegativeInt _ _).bind fun _ => ?_
    dsimp only
    split_ifs <;> simp
  · exact catchable_valueError _

end AlarmRunStatistics

/-! ### Transition attributes -/

/-- A finite scalar that is no boolean: what `_validate_json_scalar` lets through. -/
def isObserved : Scalar → Bool
  | .bool _ => false
  | v => v.isFinite

/-- `_validate_json_scalar` of an attribute. -/
def validateJsonScalar (name : String) (value : Scalar) : Result { v : Scalar // isObserved v = true } :=
  match value with
  | .bool _ => .error (typeError (name ++ " must not be a boolean"))
  | v => if h : isObserved v = true then .ok ⟨v, h⟩ else .error (valueError (name ++ " must be finite"))

/-- `isinstance(value, str)`. -/
def Scalar.isStr : Scalar → Bool
  | .str _ => true
  | _ => false

structure AlarmTransitionAttributes where
  identity : VisibleText
  code : VisibleText
  message : VisibleText
  severity : AlarmSeverity
  observedValue : { v : Scalar // isObserved v = true }
  threshold : { v : Scalar // isObserved v = true }
  threshold_numeric : Scalar.isStr threshold.1 = false
deriving DecidableEq

namespace AlarmTransitionAttributes

def attributeKeys : List String := ["alarm_identity", "code", "message", "observed_value", "severity", "threshold"]

def toItems (t : AlarmTransitionAttributes) : List (String × Scalar) :=
  [("alarm_identity", .str t.identity.text), ("code", .str t.code.text), ("message", .str t.message.text),
    ("observed_value", t.observedValue.1), ("severity", .str t.severity.value), ("threshold", t.threshold.1)]

theorem isFinite_of_isObserved {v : Scalar} (h : isObserved v = true) : v.isFinite = true := by
  cases v <;> first | rfl | exact h

theorem valid_toItems (t : AlarmTransitionAttributes) : ∀ kv ∈ t.toItems, ValidItem kv := by
  simp [toItems, ValidItem, isFinite_of_isObserved t.observedValue.2, isFinite_of_isObserved t.threshold.2]

def toAttributes (t : AlarmTransitionAttributes) : Attributes := .ofItems t.toItems t.valid_toItems

/-- `_validate_transition_attributes`. -/
def fromAttributes (attributes : Json) : Result AlarmTransitionAttributes := do
  let validated ← validateAttributes attributes
  if hasKeys attributeKeys validated.dict.items then do
    let identity ← validateNonEmptyString "alarm_identity" (validated.get "alarm_identity").toJson
    let code ← validateNonEmptyString "code" (validated.get "code").toJson
    let message ← validateNonEmptyString "message" (validated.get "message").toJson
    let severityValue ← validateNonEmptyString "severity" (validated.get "severity").toJson
    let severity ← AlarmSeverity.ofValue severityValue.text
    let observed ← validateJsonScalar "observed_value" (validated.get "observed_value")
    let threshold ← validateJsonScalar "threshold" (validated.get "threshold")
    if h : Scalar.isStr threshold.1 = false then
      .ok ⟨identity, code, message, severity, observed, threshold, h⟩
    else .error (typeError "threshold must be numeric or null")
  else .error (invalidKeys "alarm transition" attributeKeys validated.dict.items)

theorem items_toAttributes (t : AlarmTransitionAttributes) : t.toAttributes.dict.items = t.toItems :=
  Attributes.items_ofItems_of_keys attributeKeys rfl (by decide)

theorem validateJsonScalar_self (name : String) (v : { v : Scalar // isObserved v = true }) :
    validateJsonScalar name v.1 = .ok v := by
  obtain ⟨v, hv⟩ := v
  cases v with
  | bool b => cases hv
  | float x => exact dif_pos hv
  | _ => rfl

/-- The attributes that a validated transition gives are accepted, in whatever order they are read. -/
theorem fromAttributes_of_get {a : Attributes} {t : AlarmTransitionAttributes}
    (hkeys : hasKeys attributeKeys a.dict.items = true)
    (hget : ∀ key, a.get key = (lookupKey t.toItems key).getD .none) : fromAttributes a.toJson = .ok t := by
  have hidentity : a.get "alarm_identity" = .str t.identity.text := by rw [hget]; rfl
  have hcode : a.get "code" = .str t.code.text := by rw [hget]; rfl
  have hmessage : a.get "message" = .str t.message.text := by rw [hget]; rfl
  have hobserved : a.get "observed_value" = t.observedValue.1 := by rw [hget]; rfl
  have hseverity : a.get "severity" = .str t.severity.value := by rw [hget]; rfl
  have hthreshold : a.get "threshold" = t.threshold.1 := by rw [hget]; rfl
  have hvisible : validateNonEmptyString "severity" (.str t.severity.value) =
      .ok ⟨t.severity.value, by cases t.severity <;> decide, by cases t.severity <;> decide⟩ := by
    cases t.severity <;> rfl
  rw [fromAttributes, validateAttributes_toJson]
  simp only [bind, Except.bind, hkeys, ↓reduceIte, hidentity, hcode, hmessage, hobserved, hseverity, hthreshold,
    Scalar.toJson, validateNonEmptyString_text, hvisible, AlarmSeverity.ofValue_value, validateJsonScalar_self,
    t.threshold_numeric, ↓reduceDIte]

@[simp] theorem fromAttributes_toAttributes (t : AlarmTransitionAttributes) :
    fromAttributes t.toAttributes.toJson = .ok t := by
  refine fromAttributes_of_get ?_ fun key => ?_
  · rw [items_toAttributes]; rfl
  · rw [Attributes.get, Dict.get?, items_toAttributes]

theorem catchable_fromAttributes (attributes : Json) : Catchable (fromAttributes attributes) := by
  have hscalar (name : String) (v : Scalar) : Catchable (validateJsonScalar name v) := by
    unfold validateJsonScalar
    split
    · simp
    · split_ifs <;> simp
  have hseverity (s : String) : Catchable (AlarmSeverity.ofValue s) := by
    unfold AlarmSeverity.ofValue
    split_ifs <;> simp
  refine (catchable_validateAttributes _).bind fun a => ?_
  split_ifs
  · refine (catchable_validateNonEmptyString _ _).bind fun _ => (catchable_validateNonEmptyString _ _).bind fun _ =>
      (catchable_validateNonEmptyString _ _).bind fun _ => (catchable_validateNonEmptyString _ _).bind fun _ =>
        (hseverity _).bind fun _ => (hscalar _ _).bind fun _ => (hscalar _ _).bind fun _ => ?_
    split_ifs <;> simp
  · exact catchable_valueError _

end AlarmTransitionAttributes

/-! ### Events -/

def AlarmEvent.Shape : AlarmEventType → Option Nat → Attributes → Prop
  | .RUN_METADATA, sequence, a => sequence = none ∧ ∃ m : AlarmRunMetadata, a = m.toAttributes
  | .RUN_SUMMARY, sequence, a => sequence = none ∧ ∃ s : AlarmRunStatistics, a = s.toAttributes
  | .ALARM_RAISED, sequence, a | .ALARM_UPDATED, sequence, a | .ALARM_CLEARED, sequence, a =>
    (∃ n ≤ MAX_PACKET_SEQUENCE, sequence = some n) ∧ ∃ t : AlarmTransitionAttributes, a = t.toAttributes

/-- One immutable alarm event; every event has the one supported schema version. -/
structure AlarmEvent where
  sessionId : VisibleText
  eventIndex : Nat
  elapsedNs : Nat
  eventType : AlarmEventType
  packetSequence : Option Nat
  attributes : Attributes
  shape : AlarmEvent.Shape eventType packetSequence attributes
deriving DecidableEq

namespace AlarmEvent

def schemaVersion (_ : AlarmEvent) : Nat := ALARM_EVENT_SCHEMA_VERSION

theorem shape_of_isTransition {t : AlarmEventType} (h : t.isTransition = true) {sequence : Option Nat} {a : Attributes} :
    Shape t sequence a ↔
      (∃ n ≤ MAX_PACKET_SEQUENCE, sequence = some n) ∧ ∃ t : AlarmTransitionAttributes, a = t.toAttributes := by
  cases t <;> first | rfl | cases h

/-- The checks of a transition's sequence and attributes. -/
def transitionParts (packetSequence attributes : Json) : Result (Nat × AlarmTransitionAttributes) :=
  if packetSequence.isNull then .error (valueError "alarm transition packet_sequence must be provided")
  else do
    let packetSequence ← validateNonNegativeInt "packet_sequence" packetSequence
    if MAX_PACKET_SEQUENCE < packetSequence then
      .error (valueError "packet_sequence must fit an unsigned 32-bit integer")
    else do
      let attributes ← AlarmTransitionAttributes.fromAttributes attributes
      return (packetSequence, attributes)

/-- The packet sequence and the attributes of an event of a type. -/
def parts (eventType : AlarmEventType) (packetSequence attributes : Json) : Result (Option Nat × Attributes) :=
  match eventType with
  | .RUN_METADATA =>
    if packetSequence.isNull then
      (AlarmRunMetadata.fromAttributes attributes).map fun m => (none, m.toAttributes)
    else .error (valueError "run_metadata packet_sequence must be null")
  | .RUN_SUMMARY =>
    if packetSequence.isNull then
      (AlarmRunStatistics.fromAttributes attributes).map fun s => (none, s.toAttributes)
    else .error (valueError "run_summary packet_sequence must be null")
  | .ALARM_RAISED | .ALARM_UPDATED | .ALARM_CLEARED =>
    (transitionParts packetSequence attributes).map fun p => (some p.1, p.2.toAttributes)

theorem transitionParts_eq_ok {packetSequence attributes : Json} {n : Nat} {t : AlarmTransitionAttributes} :
    transitionParts packetSequence attributes = .ok (n, t) ↔
      packetSequence = .int n ∧ n ≤ MAX_PACKET_SEQUENCE ∧ AlarmTransitionAttributes.fromAttributes attributes = .ok t := by
  unfold transitionParts
  constructor
  · intro h
    split_ifs at h
    obtain ⟨k, hk, h⟩ := except_bind_eq_ok.mp h
    split_ifs at h with hmax
    obtain ⟨t', ht, h⟩ := except_bind_eq_ok.mp h
    cases h
    exact ⟨validateNonNegativeInt_eq_ok.mp hk, not_lt.mp hmax, ht⟩
  · rintro ⟨rfl, hmax, ht⟩
    rw [if_neg (by simp [Json.isNull])]
    refine except_bind_eq_ok.mpr ⟨n, validateNonNegativeInt_nat .., ?_⟩
    rw [if_neg (not_lt.mpr hmax), ht]
    rfl

theorem shape_of_parts {eventType : AlarmEventType} {packetSequence attributes : Json} {r : Option Nat × Attributes}
    (h : parts eventType packetSequence attributes = .ok r) : Shape eventType r.1 r.2 := by
  have htransition : (transitionParts packetSequence attributes).map (fun p => (some p.1, p.2.toAttributes)) = .ok r →
      (∃ n ≤ MAX_PACKET_SEQUENCE, r.1 = some n) ∧ ∃ t : AlarmTransitionAttributes, r.2 = t.toAttributes := by
    intro h
    cases hp : transitionParts packetSequence attributes with
    | error e => rw [hp] at h; cases h
    | ok p =>
      rw [hp] at h
      cases h
      exact ⟨⟨p.1, (transitionParts_eq_ok.mp hp).2.1, rfl⟩, p.2, rfl⟩
  cases eventType with
  | RUN_METADATA =>
    simp only [parts] at h
    split_ifs at h
    cases hm : AlarmRunMetadata.fromAttributes attributes with
    | error e => rw [hm] at h; cases h
    | ok m => rw [hm] at h; cases h; exact ⟨rfl, m, rfl⟩
  | RUN_SUMMARY =>
    simp only [parts] at h
    split_ifs at h
    cases hs : AlarmRunStatistics.fromAttributes attributes with
    | error e => rw [hs] at h; cases h
    | ok s => rw [hs] at h; cases h; exact ⟨rfl, s, rfl⟩
  | ALARM_RAISED => exact htransition h
  | ALARM_UPDATED => exact htransition h
  | ALARM_CLEARED => exact htransition h

/-- What has the shape of an event passes its checks again. -/
theorem parts_self {eventType : AlarmEventType} {packetSequence : Option Nat} {attributes : Attributes}
    (h : Shape eventType packetSequence attributes) :
    parts eventType (optionalInt packetSequence).toJson attributes.toJson = .ok (packetSequence, attributes) := by
  cases eventType with
  | RUN_METADATA =>
    obtain ⟨rfl, m, rfl⟩ := h
    simp [parts, optionalInt, Scalar.toJson, Json.isNull, Except.map]
  | RUN_SUMMARY =>
    obtain ⟨rfl, s, rfl⟩ := h
    simp [parts, optionalInt, Scalar.toJson, Json.isNull, Except.map]
  | _ =>
    obtain ⟨⟨n, hn, rfl⟩, t, rfl⟩ := h
    have ht : transitionParts (optionalInt (some n)).toJson t.toAttributes.toJson = .ok (n, t) :=
      transitionParts_eq_ok.mpr ⟨rfl, hn, AlarmTransitionAttributes.fromAttributes_toAttributes t⟩
    rw [parts, ht]
    rfl

def new (sessionId : String) (eventIndex elapsedNs : Json) (eventType : AlarmEventType)
    (packetSequence attributes schemaVersion : Json) : Result AlarmEvent := do
  let sessionId ← validateNonEmptyString "session_id" (.str sessionId)
  let eventIndex ← validateNonNegativeInt "event_index" eventIndex
  let elapsedNs ← validateNonNegativeInt "elapsed_ns" elapsedNs
  let schemaVersion ← validateNonNegativeInt "schema_version" schemaVersion
  if schemaVersion ≠ ALARM_EVENT_SCHEMA_VERSION then
    .error (valueError s!"unsupported alarm event schema version {schemaVersion}")
  else
    match h : parts eventType packetSequence attributes with
    | .error e => .error e
    | .ok r => .ok {
        sessionId := sessionId
        eventIndex := eventIndex
        elapsedNs := elapsedNs
        eventType := eventType
        packetSequence := r.1
        attributes := r.2
        shape := shape_of_parts h }

theorem new_eq_ok {sessionId : String} {eventIndex elapsedNs : Json} {eventType : AlarmEventType}
    {packetSequence attributes schemaVersion : Json} {e : AlarmEvent} :
    new sessionId eventIndex elapsedNs eventType packetSequence attributes schemaVersion = .ok e ↔
      sessionId = e.sessionId.text ∧ eventIndex = .int e.eventIndex ∧ elapsedNs = .int e.elapsedNs ∧
        eventType = e.eventType ∧ schemaVersion = .int ALARM_EVENT_SCHEMA_VERSION ∧
        parts eventType packetSequence attributes = .ok (e.packetSequence, e.attributes) := by
  constructor
  · intro h
    obtain ⟨sid, hsid, h⟩ := except_bind_eq_ok.mp h
    obtain ⟨i, hi, h⟩ := except_bind_eq_ok.mp h
    obtain ⟨n, hn, h⟩ := except_bind_eq_ok.mp h
    obtain ⟨v, hv, h⟩ := except_bind_eq_ok.mp h
    split_ifs at h with hversion
    split at h
    · cases h
    · rename_i r hr
      cases h
      refine ⟨?_, validateNonNegativeInt_eq_ok.mp hi, validateNonNegativeInt_eq_ok.mp hn, rfl, ?_, hr⟩
      · exact Json.str.inj (validateNonEmptyString_eq_ok.mp hsid)
      · rw [validateNonNegativeInt_eq_ok.mp hv, not_not.mp hversion]
  · rintro ⟨rfl, rfl, rfl, rfl, rfl, hparts⟩
    simp only [new, validateNonEmptyString_text, validateNonNegativeInt_nat, bind, Except.bind]
    rw [if_neg (not_not.mpr rfl)]
    split
    · rename_i err herr
      rw [hparts] at herr
      cases herr
    · rename_i r hr
      obtain rfl := Except.ok.inj (hparts.symm.trans hr)
      rfl

theorem new_self (e : AlarmEvent) : new e.sessionId.text (.int e.eventIndex) (.int e.elapsedNs) e.eventType
    (optionalInt e.packetSequence).toJson e.attributes.toJson (.int e.schemaVersion) = .ok e :=
  new_eq_ok.mpr ⟨rfl, rfl, rfl, rfl, rfl, parts_self e.shape⟩

/-- The canonical JSON object of an event. -/
def toItems (e : AlarmEvent) : List (String × Json) :=
  [("attributes", e.attributes.toJson), ("elapsed_ns", .int e.elapsedNs), ("event_index", .int e.eventIndex),
    ("event_type", .str e.eventType.value), ("packet_sequence", (optionalInt e.packetSequence).toJson),
    ("schema_version", .int e.schemaVersion), ("session_id", .str e.sessionId.text)]

def toDict (e : AlarmEvent) : Json := .obj e.toItems

def recordKeys : List String :=
  ["attributes", "elapsed_ns", "event_index", "event_type", "packet_sequence", "schema_version", "session_id"]

theorem readable (e : AlarmEvent) : e.toDict.Readable :=
  Json.readable_record recordKeys rfl (by decide) ⟨e.attributes.readable, Json.readable_int _, Json.readable_int _,
    Json.readable_str _, readable_optionalInt _, Json.readable_int _, Json.readable_str _⟩

def fromDict : Json → Result AlarmEvent
  | .obj items =>
    if hasKeys recordKeys items then
      match getKey items "event_type" with
      | .str eventType =>
        match getKey items "session_id" with
        | .str sessionId => do
          let packetSequence ← validateOptionalNonNegativeInt "packet_sequence" (getKey items "packet_sequence")
          reraise (fun exc => valueError ("invalid alarm event: " ++ exc.message)) do
            let eventIndex ← validateNonNegativeInt "event_index" (getKey items "event_index")
            let elapsedNs ← validateNonNegativeInt "elapsed_ns" (getKey items "elapsed_ns")
            let eventType ← AlarmEventType.ofValue eventType
            let attributes ← validateAttributes (getKey items "attributes")
            let schemaVersion ← validateNonNegativeInt "schema_version" (getKey items "schema_version")
            new sessionId (.int eventIndex) (.int elapsedNs) eventType (optionalInt packetSequence).toJson
              attributes.toJson (.int schemaVersion)
        | _ => .error (valueError "session_id must be a string")
      | _ => .error (valueError "event_type must be a string")
    else .error (valueError ("invalid alarm event keys: missing=" ++ reprTexts (missingKeys recordKeys items) ++
      ", extra=" ++ reprTexts (extraKeys recordKeys items)))
  | _ => .error (valueError "alarm event record must be a JSON object")

@[simp] theorem fromDict_toDict (e : AlarmEvent) : fromDict e.toDict = .ok e := by
  have hkeys : hasKeys recordKeys e.toItems = true := rfl
  have hget : getKey e.toItems "session_id" = .str e.sessionId.text ∧
      getKey e.toItems "event_type" = .str e.eventType.value ∧
      getKey e.toItems "packet_sequence" = (optionalInt e.packetSequence).toJson ∧
      getKey e.toItems "event_index" = .int e.eventIndex ∧ getKey e.toItems "elapsed_ns" = .int e.elapsedNs ∧
      getKey e.toItems "attributes" = e.attributes.toJson ∧ getKey e.toItems "schema_version" = .int e.schemaVersion :=
    ⟨rfl, rfl, rfl, rfl, rfl, rfl, rfl⟩
  obtain ⟨hs, ht, hp, hi, hn, ha, hv⟩ := hget
  simp only [toDict, fromDict, hkeys, ↓reduceIte, hs, ht, hp, hi, hn, ha, hv, bind, Except.bind,
    validateOptionalNonNegativeInt_optionalInt, validateNonNegativeInt_nat, AlarmEventType.ofValue_value,
    validateAttributes_toJson, new_self, reraise_ok]

theorem sortKeys_toDict (e : AlarmEvent) : e.toDict.sortKeys = e.toDict := by
  refine Json.sortKeys_obj recordKeys rfl (by decide) ?_
  simp [toItems, Json.sortKeys, Json.sortKeys_toJson]

theorem catchable_new (sessionId : String) (eventIndex elapsedNs : Json) (eventType : AlarmEventType)
    (packetSequence attributes schemaVersion : Json) :
    Catchable (new sessionId eventIndex elapsedNs eventType packetSequence attributes schemaVersion) := by
  have htransition : Catchable (transitionParts packetSequence attributes) := by
    unfold transitionParts
    split_ifs
    · simp
    · refine (catchable_validateNonNegativeInt _ _).bind fun _ => ?_
      split_ifs
      · simp
      · exact (AlarmTransitionAttributes.catchable_fromAttributes _).bind fun _ => catchable_ok _
  have hparts : Catchable (parts eventType packetSequence attributes) := by
    cases eventType with
    | RUN_METADATA =>
      unfold parts
      dsimp only
      split_ifs
      · exact (AlarmRunMetadata.catchable_fromAttributes _).map _
      · simp
    | RUN_SUMMARY =>
      unfold parts
      dsimp only
      split_ifs
      · exact (AlarmRunStatistics.catchable_fromAttributes _).map _
      · simp
    | _ => exact htransition.map _
  refine (catchable_validateNonEmptyString _ _).bind fun _ => (catchable_validateNonNegativeInt _ _).bind fun _ =>
    (catchable_validateNonNegativeInt _ _).bind fun _ => (catchable_validateNonNegativeInt _ _).bind fun _ => ?_
  split_ifs
  · simp
  · split
    · rename_i e he
      intro e' h
      cases h
      exact hparts e he
    · simp

theorem catchable_fromDict (payload : Json) : Catchable (fromDict payload) := by
  unfold fromDict
  split
  · split_ifs
    · split
      · split
        · refine (catchable_validateOptionalNonNegativeInt _ _).bind fun _ => Catchable.reraise ?_ fun _ => rfl
          exact (catchable_validateNonNegativeInt _ _).bind fun _ => (catchable_validateNonNegativeInt _ _).bind fun _ =>
            (AlarmEventType.catchable_ofValue _).bind fun _ => (catchable_validateAttributes _).bind fun _ =>
              (catchable_validateNonNegativeInt _ _).bind fun _ => catchable_new _ _ _ _ _ _ _
        · simp
      · simp
    · simp
  · simp

/-! ### Transitions as events -/

end AlarmEvent

/-- An observed value as a JSON scalar. -/
def AlarmValue.toScalar : AlarmValue Float64 → Scalar
  | .none => .none
  | .number x => .float x
  | .int n => .int n
  | .text s => .str s

namespace AlarmTransition

/-- The attributes that a transition becomes. -/
def eventItems (t : AlarmTransition Float64) : List (String × Scalar) :=
  [("alarm_identity", .str t.identity.name), ("code", .str t.code), ("message", .str t.message),
    ("observed_value", t.observedValue.toScalar), ("severity", .str t.severity.value),
    ("threshold", t.threshold.toScalar)]

/-- A transition that the event contract can carry. -/
structure Recordable (t : AlarmTransition Float64) : Prop where
  code : IsVisible t.code
  message : IsVisible t.message
  observed : isObserved t.observedValue.toScalar = true
  threshold : isObserved t.threshold.toScalar = true
  threshold_numeric : Scalar.isStr t.threshold.toScalar = false

/-- The validated attributes of a recordable transition. -/
def recorded (t : AlarmTransition Float64) (h : t.Recordable) : AlarmTransitionAttributes where
  identity := ⟨t.identity.name, by cases t.identity <;> decide, by cases t.identity <;> decide⟩
  code := ⟨t.code, h.code.1, h.code.2⟩
  message := ⟨t.message, h.message.1, h.message.2⟩
  severity := t.severity
  observedValue := ⟨t.observedValue.toScalar, h.observed⟩
  threshold := ⟨t.threshold.toScalar, h.threshold⟩
  threshold_numeric := h.threshold_numeric

theorem scalarObj_eventItems (t : AlarmTransition Float64) (h : t.Recordable) :
    scalarObj t.eventItems = (t.recorded h).toAttributes.toJson := by
  rw [Attributes.toJson_eq, AlarmTransitionAttributes.items_toAttributes]
  rfl

end AlarmTransition

namespace AlarmEvent

def fromTransition (sessionId : String) (eventIndex elapsedNs : Nat) (packetSequence : Int)
    (transition : AlarmTransition Float64) : Result AlarmEvent :=
  new sessionId (.int eventIndex) (.int elapsedNs) (.ofTransition transition.transition) (.int packetSequence)
    (scalarObj transition.eventItems) (.int ALARM_EVENT_SCHEMA_VERSION)

/-- A recordable transition of a packet has an event, which carries it. -/
theorem fromTransition_ok (sessionId : VisibleText) (eventIndex elapsedNs : Nat) {packetSequence : Nat}
    (hsequence : packetSequence ≤ MAX_PACKET_SEQUENCE) (t : AlarmTransition Float64) (h : t.Recordable) :
    ∃ e, fromTransition sessionId.text eventIndex elapsedNs packetSequence t = .ok e ∧ e.sessionId = sessionId ∧
      e.eventIndex = eventIndex ∧ e.elapsedNs = elapsedNs ∧ e.eventType = .ofTransition t.transition ∧
      e.packetSequence = some packetSequence ∧ e.attributes = (t.recorded h).toAttributes := by
  have hshape : Shape (.ofTransition t.transition) (some packetSequence) (t.recorded h).toAttributes :=
    (shape_of_isTransition (AlarmEventType.isTransition_ofTransition _)).mpr
      ⟨⟨packetSequence, hsequence, rfl⟩, t.recorded h, rfl⟩
  refine ⟨⟨sessionId, eventIndex, elapsedNs, _, _, _, hshape⟩, ?_, rfl, rfl, rfl, rfl, rfl, rfl⟩
  rw [fromTransition, t.scalarObj_eventItems h]
  exact new_self ⟨sessionId, eventIndex, elapsedNs, _, _, _, hshape⟩

/-! ### Statistics of events -/

/-- The counters after one more event. -/
def count (s : AlarmRunStatistics) (e : AlarmEvent) : AlarmRunStatistics :=
  match e.eventType with
  | .ALARM_RAISED => s.withTransition .RAISED
  | .ALARM_UPDATED => s.withTransition .UPDATED
  | .ALARM_CLEARED => s.withTransition .CLEARED
  | .RUN_METADATA | .RUN_SUMMARY => s

end AlarmEvent

/-- How many events have a type. -/
def alarmTypeCount (t : AlarmEventType) (events : List AlarmEvent) : Nat := events.countP fun e => e.eventType = t

def statisticsFromEvents (events : List AlarmEvent) : AlarmRunStatistics where
  transitionsRaised := alarmTypeCount .ALARM_RAISED events
  transitionsUpdated := alarmTypeCount .ALARM_UPDATED events
  transitionsCleared := alarmTypeCount .ALARM_CLEARED events

theorem statisticsFromEvents_snoc (events : List AlarmEvent) (e : AlarmEvent) :
    statisticsFromEvents (events ++ [e]) = AlarmEvent.count (statisticsFromEvents events) e := by
  simp only [statisticsFromEvents, alarmTypeCount, List.countP_append, List.countP_singleton, AlarmEvent.count]
  cases e.eventType <;> rfl

/-- The text of the counters in a message. -/
def AlarmRunStatistics.repr (s : AlarmRunStatistics) : String :=
  s!"AlarmRunStatistics(transitions_raised={s.transitionsRaised}, transitions_updated={s.transitionsUpdated}, " ++
    s!"transitions_cleared={s.transitionsCleared})"

def runMetadataFromEvents (events : List AlarmEvent) : Result (Option AlarmRunMetadata) :=
  match events.head? with
  | none => .ok none
  | some first =>
    if first.eventType ≠ .RUN_METADATA then .ok none
    else (AlarmRunMetadata.fromAttributes first.attributes.toJson).map some

def validateRunSummary (events : List AlarmEvent) : Result AlarmRunStatistics :=
  match events.getLast? with
  | none => .error (valueError "alarm event stream does not contain a final run_summary")
  | some last =>
    if last.eventType ≠ .RUN_SUMMARY then
      .error (valueError "alarm event stream does not contain a final run_summary")
    else do
      let recorded ← AlarmRunStatistics.fromAttributes last.attributes.toJson
      let recomputed := statisticsFromEvents events.dropLast
      if recorded ≠ recomputed then
        .error (valueError ("alarm run_summary counters do not match events: recorded=" ++ recorded.repr ++
          ", recomputed=" ++ recomputed.repr))
      else .ok recorded

theorem validateRunSummary_eq_ok {events : List AlarmEvent} {s : AlarmRunStatistics} :
    validateRunSummary events = .ok s ↔ ∃ init last, events = init ++ [last] ∧ last.eventType = .RUN_SUMMARY ∧
      last.attributes = s.toAttributes ∧ s = statisticsFromEvents init := by
  rcases List.eq_nil_or_concat events with rfl | ⟨init, last, rfl⟩
  · simp [validateRunSummary]
  · rw [List.concat_eq_append, validateRunSummary, List.getLast?_concat, List.dropLast_concat]
    dsimp only
    have hinj : (∃ init' last', init ++ [last] = init' ++ [last'] ∧ last'.eventType = .RUN_SUMMARY ∧
        last'.attributes = s.toAttributes ∧ s = statisticsFromEvents init') ↔
        last.eventType = .RUN_SUMMARY ∧ last.attributes = s.toAttributes ∧ s = statisticsFromEvents init := by
      constructor
      · rintro ⟨init', last', h, hrest⟩
        obtain ⟨rfl, hlast⟩ := List.append_inj' h rfl
        cases hlast
        exact hrest
      · exact fun h => ⟨init, last, rfl, h⟩
    rw [hinj]
    split_ifs with ht
    · exact ⟨(nomatch ·), fun h => absurd h.1 ht⟩
    · have hshape := last.shape
      rw [not_not.mp ht] at hshape
      obtain ⟨-, r, hr⟩ := hshape
      rw [hr, AlarmRunStatistics.fromAttributes_toAttributes]
      simp only [bind, Except.bind]
      constructor
      · intro h
        split_ifs at h with hne
        cases h
        exact ⟨not_not.mp ht, rfl, not_not.mp hne⟩
      · rintro ⟨-, hattr, hs⟩
        have hrs : r = s := by
          have := congrArg (fun a : Attributes => AlarmRunStatistics.fromAttributes a.toJson) hattr
          simpa using this
        subst hrs
        rw [if_neg (not_not.mpr hs)]

end OrbitOps
