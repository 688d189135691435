import Mathlib
import OrbitOps.Validation

/-!
# Link-emulator events

A `LinkEvent` can only hold what its constructor accepts, so an event that was built, written or
read is built again from its own fields (`LinkEvent.new_self`, `LinkEvent.fromDict_toDict`). The
loader accepts a file exactly when its non-blank lines decode to events of which each may follow
the ones before (`LinkEvent.Next`).
-/

namespace OrbitOps.Link
open Py

def LINK_EVENT_SCHEMA_VERSION : Nat := 2

/-- Event names emitted by one link-emulator run. -/
inductive LinkEventType where
  | RUN_METADATA
  | PACKET_RECEIVED
  | PACKET_DROPPED
  | PACKET_DELAYED
  | PACKET_DUPLICATED
  | PACKET_CORRUPTED
  | DELIVERY_SCHEDULED
  | PACKET_REORDERED
  | PACKET_FORWARDED
  | RUN_SUMMARY
deriving DecidableEq, Repr

namespace LinkEventType

def value : LinkEventType → String
  | RUN_METADATA => "run_metadata"
  | PACKET_RECEIVED => "packet_received"
  | PACKET_DROPPED => "packet_dropped"
  | PACKET_DELAYED => "packet_delayed"
  | PACKET_DUPLICATED => "packet_duplicated"
  | PACKET_CORRUPTED => "packet_corrupted"
  | DELIVERY_SCHEDULED => "delivery_scheduled"
  | PACKET_REORDERED => "packet_reordered"
  | PACKET_FORWARDED => "packet_forwarded"
  | RUN_SUMMARY => "run_summary"

def all : List LinkEventType :=
  [RUN_METADATA, PACKET_RECEIVED, PACKET_DROPPED, PACKET_DELAYED, PACKET_DUPLICATED, PACKET_CORRUPTED,
    DELIVERY_SCHEDULED, PACKET_REORDERED, PACKET_FORWARDED, RUN_SUMMARY]

def ofValue (s : String) : Result LinkEventType :=
  match all.find? fun t => t.value == s with
  | some t => .ok t
  | none => .error (valueError (reprText s ++ " is not a valid LinkEventType"))

@[simp] theorem ofValue_value (t : LinkEventType) : ofValue t.value = .ok t := by
  cases t <;> rfl

theorem value_injective : Function.Injective value := fun a b h => by
  have hb := ofValue_value a
  rw [h, ofValue_value b] at hb
  exact (Except.ok.inj hb).symm

theorem value_of_ofValue {s : String} {t : LinkEventType} (h : ofValue s = .ok t) : s = t.value := by
  unfold ofValue at h
  split at h
  · rename_i heq
    cases h
    have := List.find?_some heq
    exact (beq_iff_eq.mp this).symm
  · cases h

theorem catchable_ofValue (s : String) : Catchable (ofValue s) := by
  unfold ofValue
  split <;> simp

end LinkEventType

/-! ### Run metadata -/

/-- Identity and effective-configuration evidence for one link run. -/
structure LinkRunMetadata where
  configurationFingerprint : String
  profileName : Option VisibleText
  profileReference : Option VisibleText
  profileSchemaVersion : Option Nat
  fingerprint_ok : isFingerprint configurationFingerprint = true
  together : profileName.isSome = profileReference.isSome ∧ profileReference.isSome = profileSchemaVersion.isSome
  version_pos : ∀ v ∈ profileSchemaVersion, 0 < v

namespace LinkRunMetadata

instance : DecidableEq LinkRunMetadata := fun a b =>
  decidable_of_iff (a.configurationFingerprint = b.configurationFingerprint ∧ a.profileName = b.profileName ∧
    a.profileReference = b.profileReference ∧ a.profileSchemaVersion = b.profileSchemaVersion) (by
    cases a; cases b; simp)

/-- The type and range of `profile_schema_version`. -/
def requireVersion (v : Json) : Result { n : Option Nat // n.isSome = !v.isNull ∧ ∀ k ∈ n, 0 < k } :=
  match v with
  | .null => .ok ⟨none, rfl, fun _ h => by cases h⟩
  | .int n =>
    if h : 0 < n then .ok ⟨some n.toNat, rfl, fun k hk => by cases hk; omega⟩
    else .error (valueError "profile_schema_version must be positive")
  | _ => .error (typeError "profile_schema_version must be an integer or None")

def new (fingerprint name reference schemaVersion : Json) : Result LinkRunMetadata :=
  match fingerprint with
  | .str fingerprint =>
    if hf : isFingerprint fingerprint = true then do
      let name ← validateOptionalNonEmptyString "profile_name" name
      let reference ← validateOptionalNonEmptyString "profile_reference" reference
      -- the populated values are none or all three
      if ht : name.isSome = reference.isSome ∧ reference.isSome = !schemaVersion.isNull then do
        let version ← requireVersion schemaVersion
        return ⟨fingerprint, name, reference, version.1, hf, ⟨ht.1, ht.2.trans version.2.1.symm⟩, version.2.2⟩
      else .error (valueError
        "profile_name, profile_reference, and profile_schema_version must be provided together")
    else .error (valueError "configuration_fingerprint must use the form sha256:<64 lowercase hex digits>")
  | _ => .error (typeError "configuration_fingerprint must be a string")

def toItems (m : LinkRunMetadata) : List (String × Scalar) :=
  [("configuration_fingerprint", .str m.configurationFingerprint), ("profile_name", optionalText m.profileName),
    ("profile_reference", optionalText m.profileReference),
    ("profile_schema_version", optionalInt m.profileSchemaVersion)]

theorem valid_toItems (m : LinkRunMetadata) : ∀ kv ∈ m.toItems, ValidItem kv := by
  simp [toItems, ValidItem]

def toAttributes (m : LinkRunMetadata) : Attributes := .ofItems m.toItems m.valid_toItems

def attributeKeys : List String :=
  ["configuration_fingerprint", "profile_name", "profile_reference", "profile_schema_version"]

theorem items_toAttributes (m : LinkRunMetadata) : m.toAttributes.dict.items = m.toItems :=
  Attributes.items_ofItems_of_keys attributeKeys rfl (by decide)

/-- `isinstance(v, int)` or `v is None`, booleans excluded. -/
def isIntOrNone : Scalar → Bool
  | .none | .int _ => true
  | _ => false

def fromAttributes (attributes : Json) : Result LinkRunMetadata := do
  let validated ← validateAttributes attributes
  if hasKeys attributeKeys validated.dict.items then
    match validated.get "configuration_fingerprint" with
    | .str fingerprint =>
      let version := validated.get "profile_schema_version"
      if isIntOrNone version then do
        let name ← validateOptionalNonEmptyString "profile_name" (validated.get "profile_name").toJson
        let reference ← validateOptionalNonEmptyString "profile_reference" (validated.get "profile_reference").toJson
        new (.str fingerprint) (optionalText name).toJson (optionalText reference).toJson version.toJson
      else .error (typeError "profile_schema_version must be an integer or None")
    | _ => .error (typeError "configuration_fingerprint must be a string")
  else .error (valueError ("invalid run_metadata keys: missing=" ++
    reprTexts (missingKeys attributeKeys validated.dict.items) ++ ", extra=" ++
    reprTexts (extraKeys attributeKeys validated.dict.items)))

@[simp] theorem requireVersion_optionalInt {n : Option Nat} (h : ∀ v ∈ n, 0 < v) :
    ∃ r, requireVersion (optionalInt n).toJson = .ok r ∧ r.1 = n := by
  cases n with
  | none => exact ⟨_, rfl, rfl⟩
  | some v =>
    have hv : 0 < (v : Int) := by exact_mod_cast h v rfl
    exact ⟨_, by simp only [optionalInt, Scalar.toJson, requireVersion, hv, ↓reduceDIte]; rfl, by simp⟩

theorem isNull_optionalInt (n : Option Nat) : (optionalInt n).toJson.isNull = !n.isSome := by
  cases n <;> rfl

theorem new_self (m : LinkRunMetadata) : new (.str m.configurationFingerprint) (optionalText m.profileName).toJson
    (optionalText m.profileReference).toJson (optionalInt m.profileSchemaVersion).toJson = .ok m := by
  obtain ⟨r, hr, hr1⟩ := requireVersion_optionalInt m.version_pos
  have ht : m.profileName.isSome = m.profileReference.isSome ∧
      m.profileReference.isSome = !(optionalInt m.profileSchemaVersion).toJson.isNull := by
    rw [isNull_optionalInt, Bool.not_not]; exact m.together
  simp only [new, m.fingerprint_ok, ↓reduceDIte, validateOptionalNonEmptyString_text, bind, Except.bind, ht, hr]
  obtain ⟨n, hn⟩ := r
  obtain rfl : n = m.profileSchemaVersion := hr1
  simp [pure, Except.pure]

theorem get_toAttributes (m : LinkRunMetadata) (key : String) :
    m.toAttributes.get key = (lookupKey m.toItems key).getD .none := by
  rw [Attributes.get, Dict.get?, items_toAttributes]

@[simp] theorem fromAttributes_toAttributes (m : LinkRunMetadata) : fromAttributes m.toAttributes.toJson = .ok m := by
  have hkeys : hasKeys attributeKeys m.toItems = true := rfl
  have hfp : m.toAttributes.get "configuration_fingerprint" = .str m.configurationFingerprint := by
    rw [get_toAttributes]; rfl
  have hname : m.toAttributes.get "profile_name" = optionalText m.profileName := by
    rw [get_toAttributes]; rfl
  have href : m.toAttributes.get "profile_reference" = optionalText m.profileReference := by
    rw [get_toAttributes]; rfl
  have hver : m.toAttributes.get "profile_schema_version" = optionalInt m.profileSchemaVersion := by
    rw [get_toAttributes]; rfl
  have hint : isIntOrNone (optionalInt m.profileSchemaVersion) = true := by
    cases m.profileSchemaVersion <;> rfl
  rw [fromAttributes, validateAttributes_toJson]
  simp only [bind, Except.bind, items_toAttributes, hkeys, ↓reduceIte, hfp, hname, href, hver, hint,
    validateOptionalNonEmptyString_text]
  exact m.new_self

theorem catchable_fromAttributes (attributes : Json) : Catchable (fromAttributes attributes) := by
  have hversion (v : Json) : Catchable (requireVersion v) := by
    cases v <;> simp only [requireVersion, catchable_ok, catchable_typeError]
    split_ifs <;> simp
  have hnew (fingerprint name reference version : Json) : Catchable (new fingerprint name reference version) := by
    unfold new
    split
    · split_ifs
      · refine (catchable_validateOptionalNonEmptyString _ _).bind fun _ =>
          (catchable_validateOptionalNonEmptyString _ _).bind fun _ => ?_
        split_ifs
        · exact (hversion _).bind fun _ => catchable_ok _
        · simp
      · simp
    · simp
  refine (catchable_validateAttributes _).bind fun a => ?_
  split_ifs
  · split
    · dsimp only
      split_ifs
      · exact (catchable_validateOptionalNonEmptyString _ _).bind fun _ =>
          (catchable_validateOptionalNonEmptyString _ _).bind fun _ => hnew _ _ _ _
      · simp
    · simp
  · simp

end LinkRunMetadata

/-! ### Events -/

structure LinkEvent where
  sessionId : String
  eventIndex : Nat
  elapsedNs : Nat
  eventType : LinkEventType
  packetIndex : Option Nat
  attributes : Attributes
  schemaVersion : Nat
  session_visible : isBlank sessionId = false
  schema_supported : schemaVersion = 1 ∨ schemaVersion = 2
  metadata_shape : eventType = .RUN_METADATA →
    schemaVersion = 2 ∧ packetIndex = none ∧ ∃ m : LinkRunMetadata, attributes = m.toAttributes
  summary_shape : eventType = .RUN_SUMMARY → packetIndex = none

namespace LinkEvent

instance : DecidableEq LinkEvent := fun a b =>
  decidable_of_iff ((a.sessionId, a.eventIndex, a.elapsedNs, a.eventType, a.packetIndex, a.attributes,
      a.schemaVersion) = (b.sessionId, b.eventIndex, b.elapsedNs, b.eventType, b.packetIndex, b.attributes,
      b.schemaVersion)) (by
    cases a; cases b; simp)

/-- The attributes of an event of a type, with the checks that run metadata undergoes. -/
def eventAttributes (eventType : LinkEventType) (schemaVersion : Nat) (packetIndex : Option Nat) (attributes : Json) :
    Result { a : Attributes // eventType = .RUN_METADATA →
      2 ≤ schemaVersion ∧ packetIndex = none ∧ ∃ m : LinkRunMetadata, a = m.toAttributes } :=
  if ht : eventType = .RUN_METADATA then
    if hv : 2 ≤ schemaVersion then
      if hp : packetIndex = none then
        (LinkRunMetadata.fromAttributes attributes).map fun m => ⟨m.toAttributes, fun _ => ⟨hv, hp, m, rfl⟩⟩
      else .error (valueError "run_metadata packet_index must be null")
    else .error (valueError "run_metadata requires link event schema version 2")
  else (validateAttributes attributes).map fun a => ⟨a, fun h => absurd h ht⟩

def new (sessionId : String) (eventIndex elapsedNs : Json) (eventType : LinkEventType)
    (packetIndex attributes schemaVersion : Json) : Result LinkEvent :=
  if hs : isBlank sessionId = false then do
    let eventIndex ← validateNonNegativeInt "event_index" eventIndex
    let elapsedNs ← validateNonNegativeInt "elapsed_ns" elapsedNs
    let packetIndex ← validateOptionalNonNegativeInt "packet_index" packetIndex
    let schemaVersion ← validateNonNegativeInt "schema_version" schemaVersion
    if hv : schemaVersion = 1 ∨ schemaVersion = 2 then do
      let attributes ← eventAttributes eventType schemaVersion packetIndex attributes
      if hsum : eventType = .RUN_SUMMARY → packetIndex = none then
        return {
          sessionId := sessionId
          eventIndex := eventIndex
          elapsedNs := elapsedNs
          eventType := eventType
          packetIndex := packetIndex
          attributes := attributes.1
          schemaVersion := schemaVersion
          session_visible := hs
          schema_supported := hv
          metadata_shape := fun h => ⟨by have := (attributes.2 h).1; omega, (attributes.2 h).2⟩
          summary_shape := hsum }
      else .error (valueError "run_summary packet_index must be null")
    else .error (valueError s!"unsupported link event schema version {schemaVersion}")
  else .error (valueError "session_id must be a non-empty string")

/-- Events other than metadata carry the attributes given. -/
theorem validateAttributes_of_eventAttributes {eventType : LinkEventType} {schemaVersion : Nat}
    {packetIndex : Option Nat} {attributes : Json} {a : Attributes} (ht : eventType ≠ .RUN_METADATA)
    (h : ∃ ha, eventAttributes eventType schemaVersion packetIndex attributes = .ok ⟨a, ha⟩) :
    validateAttributes attributes = .ok a := by
  obtain ⟨ha, h⟩ := h
  unfold eventAttributes at h
  rw [dif_neg ht] at h
  cases hv : validateAttributes attributes with
  | error e => rw [hv] at h; cases h
  | ok a' => rw [hv] at h; cases h; rfl

/-- The canonical JSON object of an event. -/
def toItems (e : LinkEvent) : List (String × Json) :=
  [("attributes", e.attributes.toJson), ("elapsed_ns", .int e.elapsedNs), ("event_index", .int e.eventIndex),
    ("event_type", .str e.eventType.value), ("packet_index", (optionalInt e.packetIndex).toJson),
    ("schema_version", .int e.schemaVersion), ("session_id", .str e.sessionId)]

def toDict (e : LinkEvent) : Json := .obj e.toItems

def recordKeys : List String :=
  ["attributes", "elapsed_ns", "event_index", "event_type", "packet_index", "schema_version", "session_id"]

theorem readable (e : LinkEvent) : e.toDict.Readable :=
  Json.readable_record recordKeys rfl (by decide) ⟨e.attributes.readable, Json.readable_int _, Json.readable_int _,
    Json.readable_str _, readable_optionalInt _, Json.readable_int _, Json.readable_str _⟩

def fromDict : Json → Result LinkEvent
  | .obj items =>
    if hasKeys recordKeys items then
      match getKey items "session_id" with
      | .str sessionId =>
        match getKey items "event_type" with
        | .str eventType => do
          let packetIndex ← validateOptionalNonNegativeInt "packet_index" (getKey items "packet_index")
          reraise (fun exc => valueError ("invalid link event: " ++ exc.message)) do
            let eventIndex ← validateNonNegativeInt "event_index" (getKey items "event_index")
            let elapsedNs ← validateNonNegativeInt "elapsed_ns" (getKey items "elapsed_ns")
            let eventType ← LinkEventType.ofValue eventType
            let attributes ← validateAttributes (getKey items "attributes")
            let schemaVersion ← validateNonNegativeInt "schema_version" (getKey items "schema_version")
            new sessionId (.int eventIndex) (.int elapsedNs) eventType (optionalInt packetIndex).toJson
              attributes.toJson (.int schemaVersion)
        | _ => .error (valueError "event_type must be a string")
      | _ => .error (valueError "session_id must be a string")
    else .error (valueError ("invalid event keys: missing=" ++ reprTexts (missingKeys recordKeys items) ++
      ", extra=" ++ reprTexts (extraKeys recordKeys items)))
  | _ => .error (valueError "event record must be a JSON object")

theorem new_eq_ok {sessionId : String} (eventIndex elapsedNs : Nat) {eventType : LinkEventType}
    {packetIndex : Option Nat} {schemaVersion : Nat} {attributes : Json} {a : Attributes}
    (hs : isBlank sessionId = false) (hv : schemaVersion = 1 ∨ schemaVersion = 2)
    (ha : ∃ h, eventAttributes eventType schemaVersion packetIndex attributes = .ok ⟨a, h⟩)
    (hsum : eventType = .RUN_SUMMARY → packetIndex = none) :
    ∃ e, new sessionId (.int eventIndex) (.int elapsedNs) eventType (optionalInt packetIndex).toJson attributes
        (.int schemaVersion) = .ok e ∧
      e.sessionId = sessionId ∧ e.eventIndex = eventIndex ∧ e.elapsedNs = elapsedNs ∧ e.eventType = eventType ∧
      e.packetIndex = packetIndex ∧ e.attributes = a ∧ e.schemaVersion = schemaVersion := by
  obtain ⟨ha', heq⟩ := ha
  simp only [new, hs, ↓reduceDIte, validateNonNegativeInt_nat, validateOptionalNonNegativeInt_optionalInt, bind,
    Except.bind, hv, heq]
  rw [dif_pos hsum]
  exact ⟨_, rfl, rfl, rfl, rfl, rfl, rfl, rfl, rfl⟩

theorem fields_of_new {sessionId : String} {eventIndex elapsedNs : Json} {eventType : LinkEventType}
    {packetIndex attributes schemaVersion : Json} {e : LinkEvent}
    (h : new sessionId eventIndex elapsedNs eventType packetIndex attributes schemaVersion = .ok e) :
    e.sessionId = sessionId ∧ eventIndex = .int e.eventIndex ∧ elapsedNs = .int e.elapsedNs ∧
      e.eventType = eventType ∧ packetIndex = (optionalInt e.packetIndex).toJson ∧
      schemaVersion = .int e.schemaVersion ∧
      ∃ ha, eventAttributes eventType e.schemaVersion e.packetIndex attributes = .ok ⟨e.attributes, ha⟩ := by
  unfold new at h
  split_ifs at h with hs
  simp only [except_bind_eq_ok] at h
  obtain ⟨i, hi, n, hn, p, hp, v, hv, h⟩ := h
  split_ifs at h with hsup hsum
  · obtain ⟨a, ha, h⟩ := except_bind_eq_ok.mp h
    cases h
    exact ⟨rfl, validateNonNegativeInt_eq_ok.mp hi, validateNonNegativeInt_eq_ok.mp hn, rfl,
      validateOptionalNonNegativeInt_eq_ok.mp hp, validateNonNegativeInt_eq_ok.mp hv, a.2, ha⟩
  · obtain ⟨a, ha, h⟩ := except_bind_eq_ok.mp h
    cases h

theorem ext {e e' : LinkEvent} (hs : e.sessionId = e'.sessionId) (hi : e.eventIndex = e'.eventIndex)
    (hn : e.elapsedNs = e'.elapsedNs) (ht : e.eventType = e'.eventType) (hp : e.packetIndex = e'.packetIndex)
    (ha : e.attributes = e'.attributes) (hv : e.schemaVersion = e'.schemaVersion) : e = e' := by
  cases e; cases e'
  simp only at hs hi hn ht hp ha hv
  subst hs hi hn ht hp ha hv
  rfl

/-- The attributes of an event pass the checks of its type again. -/
theorem eventAttributes_self (e : LinkEvent) :
    ∃ h, eventAttributes e.eventType e.schemaVersion e.packetIndex e.attributes.toJson = .ok ⟨e.attributes, h⟩ := by
  by_cases ht : e.eventType = .RUN_METADATA
  · obtain ⟨hv, hp, m, hm⟩ := e.metadata_shape ht
    refine ⟨fun _ => ⟨by omega, hp, m, hm⟩, ?_⟩
    simp only [eventAttributes, ht, hv, hp, hm, LinkRunMetadata.fromAttributes_toAttributes, Except.map, le_refl,
      ↓reduceDIte]
  · refine ⟨fun h => absurd h ht, ?_⟩
    simp only [eventAttributes, ht, validateAttributes_toJson, Except.map, ↓reduceDIte]

theorem new_self (e : LinkEvent) : new e.sessionId (.int e.eventIndex) (.int e.elapsedNs) e.eventType
    (optionalInt e.packetIndex).toJson e.attributes.toJson (.int e.schemaVersion) = .ok e := by
  obtain ⟨e', he, hs, hi, hn, ht, hp, ha, hv⟩ := new_eq_ok e.eventIndex e.elapsedNs
    e.session_visible e.schema_supported e.eventAttributes_self e.summary_shape
  rw [he, ext hs hi hn ht hp ha hv]

@[simp] theorem fromDict_toDict (e : LinkEvent) : fromDict e.toDict = .ok e := by
  have hkeys : hasKeys recordKeys e.toItems = true := rfl
  have hget : getKey e.toItems "session_id" = .str e.sessionId ∧ getKey e.toItems "event_type" = .str e.eventType.value ∧
      getKey e.toItems "packet_index" = (optionalInt e.packetIndex).toJson ∧
      getKey e.toItems "event_index" = .int e.eventIndex ∧ getKey e.toItems "elapsed_ns" = .int e.elapsedNs ∧
      getKey e.toItems "attributes" = e.attributes.toJson ∧ getKey e.toItems "schema_version" = .int e.schemaVersion :=
    ⟨rfl, rfl, rfl, rfl, rfl, rfl, rfl⟩
  obtain ⟨hs, ht, hp, hi, hn, ha, hv⟩ := hget
  simp only [toDict, fromDict, hkeys, ↓reduceIte, hs, ht, hp, hi, hn, ha, hv, bind, Except.bind,
    validateOptionalNonNegativeInt_optionalInt, validateNonNegativeInt_nat, LinkEventType.ofValue_value,
    validateAttributes_toJson, new_self, reraise_ok]

theorem sortKeys_toDict (e : LinkEvent) : e.toDict.sortKeys = e.toDict := by
  refine Json.sortKeys_obj recordKeys rfl (by decide) ?_
  simp [toItems, Json.sortKeys, Json.sortKeys_toJson]

theorem catchable_new (sessionId : String) (eventIndex elapsedNs : Json) (eventType : LinkEventType)
    (packetIndex attributes schemaVersion : Json) :
    Catchable (new sessionId eventIndex elapsedNs eventType packetIndex attributes schemaVersion) := by
  have hattributes (v : Nat) (p : Option Nat) : Catchable (eventAttributes eventType v p attributes) := by
    unfold eventAttributes
    split_ifs
    · exact (LinkRunMetadata.catchable_fromAttributes _).map _
    · simp
    · simp
    · exact (catchable_validateAttributes _).map _
  unfold new
  split_ifs
  · refine (catchable_validateNonNegativeInt _ _).bind fun _ => (catchable_validateNonNegativeInt _ _).bind fun _ =>
      (catchable_validateOptionalNonNegativeInt _ _).bind fun _ => (catchable_validateNonNegativeInt _ _).bind fun _ => ?_
    split_ifs
    · exact (hattributes _ _).bind fun _ => catchable_ok _
    · exact (hattributes _ _).bind fun _ => catchable_valueError _
    · simp
  · simp

theorem catchable_fromDict (payload : Json) : Catchable (fromDict payload) := by
  unfold fromDict
  split
  · split_ifs
    · split
      · split
        · refine (catchable_validateOptionalNonNegativeInt _ _).bind fun _ => Catchable.reraise ?_ fun _ => rfl
          exact (catchable_validateNonNegativeInt _ _).bind fun _ => (catchable_validateNonNegativeInt _ _).bind fun _ =>
            (LinkEventType.catchable_ofValue _).bind fun _ => (catchable_validateAttributes _).bind fun _ =>
              (catchable_validateNonNegativeInt _ _).bind fun _ => catchable_new _ _ _ _ _ _ _
        · simp
      · simp
    · simp
  · simp

end LinkEvent

/-! ### Writing -/

/-- The file of an event recorder. -/
structure JsonlEventRecorder where
  lines : List String
  closed : Bool

namespace JsonlEventRecorder

def new : JsonlEventRecorder := ⟨[], false⟩

def write (event : LinkEvent) : Method PyError JsonlEventRecorder Unit := do
  let self ← Method.get
  if self.closed then Method.raise (runtimeError "event recorder is closed")
  else Method.modify fun r => { r with lines := r.lines ++ [event.toDict.line] }

def close : Method PyError JsonlEventRecorder Unit := Method.modify fun r => { r with closed := true }

/-- The file that an open recorder has after writing events. -/
theorem forEach_write (events : List LinkEvent) {r : JsonlEventRecorder} (h : r.closed = false) :
    Method.forEach write events r = (.ok (), { r with lines := r.lines ++ events.map fun e => e.toDict.line }) := by
  induction events generalizing r with
  | nil => simp
  | cons e rest ih =>
    have hclosed : (⟨r.lines ++ [e.toDict.line], r.closed⟩ : JsonlEventRecorder).closed = false := h
    have hw : write e r = (.ok (), { r with lines := r.lines ++ [e.toDict.line] }) := by
      rw [write, Method.bind_ok (Method.get_apply r), if_neg (by rw [h]; decide)]
      rfl
    rw [Method.forEach_cons, Method.bind_ok hw]
    refine (ih hclosed).trans ?_
    rw [List.map_cons, List.append_assoc]
    rfl

end JsonlEventRecorder

/-! ### Loading -/

/-- The variables of the loading loop. -/
structure LoadState where
  events : List LinkEvent
  sessionId : Option String
  schemaVersion : Option Nat
  previousElapsedNs : Int
  summarySeen : Bool
  metadataSeen : Bool

/-- The event on a line. -/
def decodeLine (loads : String → Option Json) (lineNumber : Nat) (line : String) : Result LinkEvent :=
  match loads line with
  | none => .error (valueError s!"invalid link event at line {lineNumber}")
  | some payload => reraise (fun _ => valueError s!"invalid link event at line {lineNumber}") (LinkEvent.fromDict payload)

/-- The checks of an event against the events before it. -/
def appendEvent (lineNumber : Nat) (st : LoadState) (event : LinkEvent) : Result LoadState :=
  if event.eventIndex ≠ st.events.length then
    .error (valueError s!"non-contiguous event_index at line {lineNumber}")
  else if st.sessionId ≠ none ∧ st.sessionId ≠ some event.sessionId then
    .error (valueError s!"session_id changed at line {lineNumber}")
  else if st.schemaVersion ≠ none ∧ st.schemaVersion ≠ some event.schemaVersion then
    .error (valueError s!"schema_version changed at line {lineNumber}")
  else if (event.elapsedNs : Int) < st.previousElapsedNs then
    .error (valueError s!"elapsed_ns moved backwards at line {lineNumber}")
  else if st.summarySeen then .error (valueError "run_summary must be the final event")
  else if 2 ≤ event.schemaVersion ∧ st.events = [] ∧ event.eventType ≠ .RUN_METADATA then
    .error (valueError "schema version 2 streams must begin with run_metadata")
  else if 2 ≤ event.schemaVersion ∧ event.eventType = .RUN_METADATA ∧ (st.metadataSeen = true ∨ st.events ≠ []) then
    .error (valueError "run_metadata may appear only once as the first event")
  else .ok {
    events := st.events ++ [event]
    sessionId := st.sessionId.or (some event.sessionId)
    schemaVersion := st.schemaVersion.or (some event.schemaVersion)
    previousElapsedNs := event.elapsedNs
    summarySeen := event.eventType = .RUN_SUMMARY || st.summarySeen
    metadataSeen := event.eventType = .RUN_METADATA || st.metadataSeen }

def loadStep (loads : String → Option Json) (lineNumber : Nat) (line : String) (st : LoadState) : Result LoadState := do
  let event ← decodeLine loads lineNumber line
  appendEvent lineNumber st event

def LoadState.start : LoadState := ⟨[], none, none, -1, false, false⟩

def loadLinkEvents (loads : String → Option Json) (file : TextFile) : Result (List LinkEvent) :=
  (file.fold valueError (loadStep loads) .start).map LoadState.events

/-- The event `e` may follow the events `es` in a file. -/
structure LinkEvent.Next (es : List LinkEvent) (e : LinkEvent) : Prop where
  index : e.eventIndex = es.length
  session : ∀ f ∈ es.head?, f.sessionId = e.sessionId
  schema : ∀ f ∈ es.head?, f.schemaVersion = e.schemaVersion
  elapsed : ∀ f ∈ es.getLast?, f.elapsedNs ≤ e.elapsedNs
  summary : ∀ f ∈ es, f.eventType ≠ .RUN_SUMMARY
  header : e.schemaVersion = 2 → (es = [] ↔ e.eventType = .RUN_METADATA)

/-- The loop variables after reading events. -/
def LoadState.of (es : List LinkEvent) : LoadState where
  events := es
  sessionId := es.head?.map LinkEvent.sessionId
  schemaVersion := es.head?.map LinkEvent.schemaVersion
  previousElapsedNs := (es.getLast?.map fun e => (e.elapsedNs : Int)).getD (-1)
  summarySeen := es.any fun e => e.eventType = .RUN_SUMMARY
  metadataSeen := es.any fun e => e.eventType = .RUN_METADATA

theorem LoadState.of_snoc (es : List LinkEvent) (e : LinkEvent) : LoadState.of (es ++ [e]) = {
    events := es ++ [e]
    sessionId := (LoadState.of es).sessionId.or (some e.sessionId)
    schemaVersion := (LoadState.of es).schemaVersion.or (some e.schemaVersion)
    previousElapsedNs := e.elapsedNs
    summarySeen := e.eventType = .RUN_SUMMARY || (LoadState.of es).summarySeen
    metadataSeen := e.eventType = .RUN_METADATA || (LoadState.of es).metadataSeen } := by
  simp only [LoadState.of, map_head?_concat, any_concat, List.getLast?_concat, Option.map_some, Option.getD_some]

theorem appendEvent_eq_ok {n : Nat} {es : List LinkEvent} {e : LinkEvent} {st : LoadState} :
    appendEvent n (.of es) e = .ok st ↔ LinkEvent.Next es e ∧ st = .of (es ++ [e]) := by
  rw [LoadState.of_snoc]
  constructor
  · intro h
    unfold appendEvent at h
    split_ifs at h with hidx hsid hver hel hsum hhead hmeta
    cases h
    refine ⟨⟨not_not.mp hidx, not_changed_iff.mp hsid, not_changed_iff.mp hver, not_backwards_iff.mp hel,
      not_seen_iff.mp hsum, ?_⟩, rfl⟩
    intro hv
    constructor
    · intro hes
      by_contra hne
      exact hhead ⟨hv.ge, hes, hne⟩
    · intro ht
      by_contra hes
      exact hmeta ⟨hv.ge, ht, .inr hes⟩
  · rintro ⟨h, rfl⟩
    have hidx : ¬e.eventIndex ≠ (LoadState.of es).events.length := not_not.mpr h.index
    have hsid : ¬((LoadState.of es).sessionId ≠ none ∧ (LoadState.of es).sessionId ≠ some e.sessionId) :=
      not_changed_iff.mpr h.session
    have hver : ¬((LoadState.of es).schemaVersion ≠ none ∧ (LoadState.of es).schemaVersion ≠ some e.schemaVersion) :=
      not_changed_iff.mpr h.schema
    have hel : ¬((e.elapsedNs : Int) < (LoadState.of es).previousElapsedNs) := not_backwards_iff.mpr h.elapsed
    have hsum : ¬(LoadState.of es).summarySeen = true := not_seen_iff.mpr h.summary
    have h2 : 2 ≤ e.schemaVersion → e.schemaVersion = 2 := by
      have := e.schema_supported
      omega
    rw [appendEvent, if_neg hidx, if_neg hsid, if_neg hver, if_neg hel, if_neg hsum, if_neg, if_neg]
    · rfl
    · rintro ⟨hv, ht, hseen⟩
      have hes := (h.header (h2 hv)).mpr ht
      rcases hseen with hseen | hne
      · simp [LoadState.of, hes] at hseen
      · exact hne hes
    · rintro ⟨hv, hes, hne⟩
      exact hne ((h.header (h2 hv)).mp hes)

/-- The files that the loader accepts, and what it returns. -/
theorem loadLinkEvents_eq_ok {loads : String → Option Json} {file : TextFile} {es : List LinkEvent} :
    loadLinkEvents loads file = .ok es ↔ file.undecodable = none ∧ Decodes (decodeLine loads) 1 file.lines es ∧
      Grows LinkEvent.Next [] es := by
  have hstep : ∀ n line acc st, isBlank line = false → (loadStep loads n line (.of acc) = .ok st ↔
      ∃ e, decodeLine loads n line = .ok e ∧ LinkEvent.Next acc e ∧ st = .of (acc ++ [e])) := by
    intro n line acc st _
    simp only [loadStep, except_bind_eq_ok, appendEvent_eq_ok]
  have hfold (st : LoadState) : file.fold valueError (loadStep loads) .start = .ok st ↔ _ :=
    TextFile.fold_eq_ok hstep
  rw [loadLinkEvents]
  constructor
  · intro h
    cases hf : file.fold valueError (loadStep loads) .start with
    | error e => rw [hf] at h; cases h
    | ok st =>
      rw [hf] at h
      cases h
      obtain ⟨hu, es, hd, hg, rfl⟩ := (hfold st).mp hf
      exact ⟨hu, hd, hg⟩
  · rintro ⟨hu, hd, hg⟩
    rw [(hfold (.of es)).mpr ⟨hu, es, hd, hg, rfl⟩]
    rfl

theorem catchable_loadLinkEvents (loads : String → Option Json) (file : TextFile) :
    Catchable (loadLinkEvents loads file) := by
  have hdecode (n : Nat) (line : String) : Catchable (decodeLine loads n line) := by
    unfold decodeLine
    split
    · simp
    · exact Catchable.reraise (LinkEvent.catchable_fromDict _) fun _ => rfl
  have happend (n : Nat) (st : LoadState) (e : LinkEvent) : Catchable (appendEvent n st e) := by
    unfold appendEvent
    split_ifs <;> simp
  exact (catchable_fold (fun n line _ => (hdecode n line).bind fun e => happend n _ e) _ _).map _

/-- Events that may follow one another are loaded from the file that the recorder writes. -/
theorem loadLinkEvents_written {loads : String → Option Json} {es : List LinkEvent}
    (hloads : ∀ e ∈ es, ReadsBack loads e.toDict) (h : Grows LinkEvent.Next [] es) :
    loadLinkEvents loads ⟨es.map fun e => e.toDict.line, none⟩ = .ok es := by
  refine loadLinkEvents_eq_ok.mpr ⟨rfl, decodes_map 1 fun e he => ⟨isBlank_line_obj _, fun n => ?_⟩, h⟩
  rw [decodeLine, hloads e he, e.sortKeys_toDict]
  simp only [LinkEvent.fromDict_toDict, reraise_ok]

end OrbitOps.Link
