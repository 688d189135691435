import OrbitOps.Recorder
import OrbitOps.Session.Correlation

/-!
# The normalized session

Source descriptors, lane summaries, timeline entries, diagnostics and the session that holds them.
Each can only hold what its constructor accepts; a constructor either returns the value that was
asked for or raises.
-/

namespace OrbitOps.Session
open Py

/-- Categories stored in the normalized timeline. -/
inductive TimelineEntryKind where
  | TELEMETRY_PACKET
  | TELEMETRY_REJECTED
  | ALARM_TRANSITION
  | LINK_EVENT
deriving DecidableEq, Repr

def TimelineEntryKind.value : TimelineEntryKind → String
  | TELEMETRY_PACKET => "telemetry_packet"
  | TELEMETRY_REJECTED => "telemetry_rejected"
  | ALARM_TRANSITION => "alarm_transition"
  | LINK_EVENT => "link_event"

inductive DiagnosticSeverity where
  | INFO
  | WARNING
  | ERROR
deriving DecidableEq, Repr

def DiagnosticSeverity.value : DiagnosticSeverity → String
  | INFO => "info"
  | WARNING => "warning"
  | ERROR => "error"

def DiagnosticSeverity.rank : DiagnosticSeverity → Nat
  | ERROR => 0
  | WARNING => 1
  | INFO => 2

/-- Machine-readable diagnostic identifiers. -/
inductive DiagnosticCode where
  | SOURCE_EMPTY
  | SOURCE_NOT_PROVIDED
  | SOURCE_INCOMPLETE
  | SOURCE_SUMMARY_MISSING
  | TELEMETRY_PACKET_REJECTED
  | TELEMETRY_SEQUENCE_GAP
  | TELEMETRY_SEQUENCE_DUPLICATE
  | ALARM_CORRELATION_AMBIGUOUS
  | ALARM_CORRELATION_IMPOSSIBLE
  | LINK_CORRUPTION_OBSERVED
  | METADATA_MISMATCH
  | TIMELINE_TRUNCATED
deriving DecidableEq, Repr

def DiagnosticCode.value : DiagnosticCode → String
  | SOURCE_EMPTY => "source_empty"
  | SOURCE_NOT_PROVIDED => "source_not_provided"
  | SOURCE_INCOMPLETE => "source_incomplete"
  | SOURCE_SUMMARY_MISSING => "source_summary_missing"
  | TELEMETRY_PACKET_REJECTED => "telemetry_packet_rejected"
  | TELEMETRY_SEQUENCE_GAP => "telemetry_sequence_gap"
  | TELEMETRY_SEQUENCE_DUPLICATE => "telemetry_sequence_duplicate"
  | ALARM_CORRELATION_AMBIGUOUS => "alarm_correlation_ambiguous"
  | ALARM_CORRELATION_IMPOSSIBLE => "alarm_correlation_impossible"
  | LINK_CORRUPTION_OBSERVED => "link_corruption_observed"
  | METADATA_MISMATCH => "metadata_mismatch"
  | TIMELINE_TRUNCATED => "timeline_truncated"

/-! ### Sources and lanes -/

/-- Source-local identity and completion context for one evidence lane. -/
structure SourceDescriptor where
  lane : EvidenceLane
  sourceName : VisibleText
  recordCount : Nat
  completeness : SourceCompleteness
  schemaVersion : Option Nat
  sessionId : Option VisibleText
  readable : ∀ v ∈ schemaVersion, 0 < v ∧ v ∈ (CONTRACT_SEMANTICS lane).readableSchemaVersions
  anonymous : lane = .TELEMETRY → sessionId = none
deriving DecidableEq

namespace SourceDescriptor

/-- The checks of `schema_version`. -/
def requireReadable (lane : EvidenceLane) (schemaVersion : Option Nat) :
    Result { v : Option Nat // ∀ n ∈ v, 0 < n ∧ n ∈ (CONTRACT_SEMANTICS lane).readableSchemaVersions } :=
  match schemaVersion with
  | none => .ok ⟨none, fun _ h => by cases h⟩
  | some v =>
    if hpos : 0 < v then
      if hv : v ∈ (CONTRACT_SEMANTICS lane).readableSchemaVersions then .ok ⟨some v, fun n hn => by cases hn; exact ⟨hpos, hv⟩⟩
      else .error (valueError ("unsupported " ++ lane.value ++ " schema version " ++ toString v))
    else .error (valueError "schema_version must be positive")

def requireSession : Option String → Result (Option VisibleText)
  | none => .ok none
  | some s => (validateNonEmptyString "session_id" (.str s)).map some

def new (lane : EvidenceLane) (sourceName : String) (recordCount : Nat) (completeness : SourceCompleteness)
    (schemaVersion : Option Nat) (sessionId : Option String) : Result SourceDescriptor := do
  let sourceName ← validateNonEmptyString "source_name" (.str sourceName)
  let schemaVersion ← requireReadable lane schemaVersion
  let sessionId ← requireSession sessionId
  if h : lane = .TELEMETRY → sessionId = none then
    return ⟨lane, sourceName, recordCount, completeness, schemaVersion.1, sessionId, schemaVersion.2, h⟩
  else .error (valueError "telemetry recording schema has no session_id")

/-- The descriptor holds these values. -/
structure Holds (s : SourceDescriptor) (lane : EvidenceLane) (sourceName : String) (recordCount : Nat)
    (completeness : SourceCompleteness) (schemaVersion : Option Nat) (sessionId : Option String) : Prop where
  lane : s.lane = lane
  sourceName : s.sourceName.text = sourceName
  recordCount : s.recordCount = recordCount
  completeness : s.completeness = completeness
  schemaVersion : s.schemaVersion = schemaVersion
  sessionId : s.sessionId.map VisibleText.text = sessionId

theorem requireReadable_eq_ok {lane : EvidenceLane} {schemaVersion : Option Nat}
    {v : { v : Option Nat // ∀ n ∈ v, 0 < n ∧ n ∈ (CONTRACT_SEMANTICS lane).readableSchemaVersions }} :
    requireReadable lane schemaVersion = .ok v ↔ v.1 = schemaVersion := by
  obtain ⟨v, hv⟩ := v
  unfold requireReadable
  cases schemaVersion with
  | none => simp [eq_comm]
  | some n =>
    dsimp only
    split_ifs with hpos hn
    · simp [eq_comm]
    · exact ⟨(nomatch ·), fun h => absurd (hv n h).2 hn⟩
    · exact ⟨(nomatch ·), fun h => absurd (hv n h).1 hpos⟩

theorem requireSession_eq_ok {sessionId : Option String} {v : Option VisibleText} :
    requireSession sessionId = .ok v ↔ v.map VisibleText.text = sessionId := by
  cases sessionId with
  | none => simp [requireSession, eq_comm]
  | some s =>
    simp only [requireSession, Except.map]
    constructor
    · intro h
      cases hs : validateNonEmptyString "session_id" (.str s) with
      | error e => rw [hs] at h; cases h
      | ok t =>
        rw [hs] at h
        cases h
        rw [validateNonEmptyString_eq_ok, Json.str.injEq] at hs
        rw [hs]
        rfl
    · intro h
      obtain ⟨t, rfl, rfl⟩ := Option.map_eq_some_iff.mp h
      rw [validateNonEmptyString_text]

theorem new_eq_ok {lane : EvidenceLane} {sourceName : String} {recordCount : Nat} {completeness : SourceCompleteness}
    {schemaVersion : Option Nat} {sessionId : Option String} {s : SourceDescriptor} :
    new lane sourceName recordCount completeness schemaVersion sessionId = .ok s ↔
      s.Holds lane sourceName recordCount completeness schemaVersion sessionId := by
  simp only [new, except_bind_eq_ok]
  constructor
  · rintro ⟨name, hname, version, hversion, session, hsession, h⟩
    rw [validateNonEmptyString_eq_ok, Json.str.injEq] at hname
    rw [requireReadable_eq_ok] at hversion
    rw [requireSession_eq_ok] at hsession
    split_ifs at h
    cases h
    exact ⟨rfl, hname.symm, rfl, rfl, hversion, hsession⟩
  · rintro ⟨rfl, rfl, rfl, rfl, rfl, rfl⟩
    refine ⟨s.sourceName, validateNonEmptyString_text _ _, ⟨s.schemaVersion, s.readable⟩, requireReadable_eq_ok.mpr rfl,
      s.sessionId, requireSession_eq_ok.mpr rfl, ?_⟩
    rw [dif_pos s.anonymous]
    rfl

/-- A descriptor exists for visible names, readable versions and, outside telemetry, visible session identities. -/
theorem exists_holds (lane : EvidenceLane) {sourceName : String} (hname : IsVisible sourceName) (recordCount : Nat)
    (completeness : SourceCompleteness) {schemaVersion : Option Nat}
    (hversion : ∀ v ∈ schemaVersion, 0 < v ∧ v ∈ (CONTRACT_SEMANTICS lane).readableSchemaVersions)
    {sessionId : Option String} (hsession : ∀ t ∈ sessionId, IsVisible t) (hlane : lane = .TELEMETRY → sessionId = none) :
    ∃ s : SourceDescriptor, s.Holds lane sourceName recordCount completeness schemaVersion sessionId := by
  cases sessionId with
  | none =>
    exact ⟨⟨lane, ⟨sourceName, hname.1, hname.2⟩, recordCount, completeness, schemaVersion, none, hversion, fun _ => rfl⟩,
      rfl, rfl, rfl, rfl, rfl, rfl⟩
  | some t =>
    have ht := hsession t rfl
    exact ⟨⟨lane, ⟨sourceName, hname.1, hname.2⟩, recordCount, completeness, schemaVersion, some ⟨t, ht.1, ht.2⟩,
      hversion, fun h => by cases hlane h⟩, rfl, rfl, rfl, rfl, rfl, rfl⟩

theorem Holds.visible {s : SourceDescriptor} {lane : EvidenceLane} {sourceName : String} {recordCount : Nat}
    {completeness : SourceCompleteness} {schemaVersion : Option Nat} {sessionId : Option String}
    (h : s.Holds lane sourceName recordCount completeness schemaVersion sessionId) :
    IsVisible sourceName ∧ ∀ t ∈ sessionId, IsVisible t := by
  obtain ⟨-, rfl, -, -, -, rfl⟩ := h
  refine ⟨⟨s.sourceName.notBlank, s.sourceName.noNul⟩, fun t ht => ?_⟩
  obtain ⟨v, -, rfl⟩ := Option.map_eq_some_iff.mp ht
  exact ⟨v.notBlank, v.noNul⟩

end SourceDescriptor

structure Counters where
  dict : Dict Nat
  named : ∀ kv ∈ dict.items, kv.1 ≠ ""
deriving DecidableEq

def freezeCounters (counters : List (String × Nat)) : Result Counters :=
  if h : ∀ kv ∈ counters, kv.1 ≠ "" then .ok ⟨.ofItems counters, fun kv hkv => h kv (Dict.mem_ofItems hkv)⟩
  else .error (valueError "counter names must be non-empty strings")

/-- Counters and metadata for one validated lane. -/
structure LaneSummary where
  source : SourceDescriptor
  summaryPresent : Bool
  counters : Counters
  metadata : Attributes
  expected : classifySourceCompleteness source.lane source.recordCount summaryPresent = .ok source.completeness
deriving DecidableEq

def LaneSummary.new (source : SourceDescriptor) (summaryPresent : Bool) (counters : List (String × Nat))
    (metadata : Json) : Result LaneSummary :=
  match h : classifySourceCompleteness source.lane source.recordCount summaryPresent with
  | .error e => .error e
  | .ok expected =>
    if hne : source.completeness = expected then do
      let counters ← freezeCounters counters
      let metadata ← validateAttributes metadata
      return ⟨source, summaryPresent, counters, metadata, h.trans (congrArg _ hne.symm)⟩
    else .error (valueError "source completeness does not match lane record count and summary presence")

theorem LaneSummary.new_eq_ok {source : SourceDescriptor} {summaryPresent : Bool} {counters : List (String × Nat)}
    {metadata : Json} {s : LaneSummary} : LaneSummary.new source summaryPresent counters metadata = .ok s ↔
      s.source = source ∧ s.summaryPresent = summaryPresent ∧ freezeCounters counters = .ok s.counters ∧
        validateAttributes metadata = .ok s.metadata := by
  unfold LaneSummary.new
  constructor
  · intro h
    split at h
    · cases h
    · split_ifs at h
      obtain ⟨c, hc, h⟩ := except_bind_eq_ok.mp h
      obtain ⟨m, hm, h⟩ := except_bind_eq_ok.mp h
      cases h
      exact ⟨rfl, rfl, hc, hm⟩
  · rintro ⟨rfl, rfl, hc, hm⟩
    have hexpected := s.expected
    split
    · rename_i e he
      rw [hexpected] at he
      cases he
    · rename_i expected he
      obtain rfl := Except.ok.inj (hexpected.symm.trans he)
      rw [dif_pos rfl]
      exact except_bind_eq_ok.mpr ⟨s.counters, hc, except_bind_eq_ok.mpr ⟨s.metadata, hm, rfl⟩⟩

/-- A summary exists for a descriptor with the completeness that is expected of it. -/
theorem LaneSummary.exists_new {source : SourceDescriptor} {summaryPresent : Bool} {counters : List (String × Nat)}
    {metadata : Json} (hexpected : classifySourceCompleteness source.lane source.recordCount summaryPresent =
      .ok source.completeness) {c : Counters} (hc : freezeCounters counters = .ok c) {m : Attributes}
    (hm : validateAttributes metadata = .ok m) :
    ∃ s, LaneSummary.new source summaryPresent counters metadata = .ok s :=
  ⟨⟨source, summaryPresent, c, m, hexpected⟩, LaneSummary.new_eq_ok.mpr ⟨rfl, rfl, hc, hm⟩⟩

/-! ### Timeline entries -/

/-- The fields of a timeline entry other than its attributes. -/
structure TimelineData where
  lane : EvidenceLane
  sourceIndex : Nat
  kind : TimelineEntryKind
  eventType : String
  receivedAt : Option Float64 := none
  elapsedNs : Option Int := none
  packetSequence : Option Int := none
  packetIndex : Option Int := none
  telemetryTimestampMs : Option Int := none
  correlation : Option CorrelationDecision := none
deriving DecidableEq

namespace TimelineData

def validateLaneShape (e : TimelineData) : Result Unit :=
  match e.lane with
  | .TELEMETRY =>
    if ¬(e.kind = .TELEMETRY_PACKET ∨ e.kind = .TELEMETRY_REJECTED) then
      .error (valueError "telemetry lane requires a telemetry entry kind")
    else if e.receivedAt = none then .error (valueError "telemetry entries require received_at")
    else if e.elapsedNs ≠ none ∨ e.packetIndex ≠ none then
      .error (valueError "telemetry entries cannot use elapsed_ns or packet_index")
    else if e.correlation ≠ none then .error (valueError "telemetry entries do not carry correlation decisions")
    else if e.kind = .TELEMETRY_PACKET then
      if e.packetSequence = none ∨ e.telemetryTimestampMs = none then
        .error (valueError "decoded telemetry entries require packet_sequence and telemetry_timestamp_ms")
      else .ok ()
    else if e.packetSequence ≠ none ∨ e.telemetryTimestampMs ≠ none then
      .error (valueError "rejected telemetry entries cannot claim decoded packet fields")
    else .ok ()
  | .ALARM =>
    if e.kind ≠ .ALARM_TRANSITION then .error (valueError "alarm lane requires alarm_transition entries")
    else if e.receivedAt ≠ none ∨ e.elapsedNs = none then
      .error (valueError "alarm entries require elapsed_ns and cannot use received_at")
    else if e.packetSequence = none ∨ e.packetIndex ≠ none then
      .error (valueError "alarm entries require packet_sequence and cannot use packet_index")
    else if e.telemetryTimestampMs ≠ none then
      .error (valueError "alarm entries cannot use telemetry_timestamp_ms")
    else
      match e.correlation with
      | none => .error (valueError "alarm entries require an explicit correlation decision")
      | some d =>
        if d.kind = .EXACT ∨ d.kind = .AMBIGUOUS ∨ d.kind = .IMPOSSIBLE then .ok ()
        else .error (valueError "alarm correlation kind is not permitted by ADR 0005")
  | .LINK =>
    if e.kind ≠ .LINK_EVENT then .error (valueError "link lane requires link_event entries")
    else if e.receivedAt ≠ none ∨ e.elapsedNs = none then
      .error (valueError "link entries require elapsed_ns and cannot use received_at")
    else if e.packetSequence ≠ none ∨ e.telemetryTimestampMs ≠ none then
      .error (valueError "link entries cannot claim telemetry packet fields")
    else if e.correlation ≠ none then
      .error (valueError "link entries remain a separate lane without correlation decisions")
    else .ok ()

/-- The check of an optional integer. -/
def requireNonNegative (name : String) : Option Int → Result Unit
  | none => .ok ()
  | some n => (validateNonNegativeInt name (.int n)).map fun _ => ()

/-- The check of an optional integer of a fixed width. -/
def requireWidth (name : String) (bits : Nat) : Option Int → Result Unit
  | none => .ok ()
  | some n =>
    if n > 2 ^ bits - 1 then .error (valueError (name ++ s!" must fit an unsigned {bits}-bit integer")) else .ok ()

def requireReceivedAt : Option Float64 → Result Unit
  | none => .ok ()
  | some x =>
    if x.isFinite = false ∨ x.lt .zero = true then .error (valueError "received_at must be finite and non-negative")
    else .ok ()

/-- The checks of `TimelineEntry.__post_init__` before the attributes are frozen. -/
def check (e : TimelineData) : Result Unit := do
  let _ ← validateNonEmptyString "event_type" (.str e.eventType)
  requireReceivedAt e.receivedAt
  requireNonNegative "elapsed_ns" e.elapsedNs
  requireNonNegative "packet_sequence" e.packetSequence
  requireWidth "packet_sequence" 32 e.packetSequence
  requireNonNegative "packet_index" e.packetIndex
  requireNonNegative "telemetry_timestamp_ms" e.telemetryTimestampMs
  requireWidth "telemetry_timestamp_ms" 64 e.telemetryTimestampMs
  e.validateLaneShape

/-- What passes the checks. -/
structure Valid (e : TimelineData) : Prop where
  eventType : IsVisible e.eventType
  receivedAt : ∀ x ∈ e.receivedAt, x.isFinite = true ∧ x.lt .zero = false
  elapsedNs : ∀ n ∈ e.elapsedNs, 0 ≤ n
  packetSequence : ∀ n ∈ e.packetSequence, 0 ≤ n ∧ n ≤ 2 ^ 32 - 1
  packetIndex : ∀ n ∈ e.packetIndex, 0 ≤ n
  telemetryTimestampMs : ∀ n ∈ e.telemetryTimestampMs, 0 ≤ n ∧ n ≤ 2 ^ 64 - 1
  shape : e.validateLaneShape = .ok ()

theorem requireNonNegative_eq_ok {name : String} {v : Option Int} :
    requireNonNegative name v = .ok () ↔ ∀ n ∈ v, 0 ≤ n := by
  cases v with
  | none => simp [requireNonNegative]
  | some n =>
    rw [requireNonNegative, validateNonNegativeInt]
    split_ifs with h <;> simp [Except.map, h]
    omega

theorem requireWidth_eq_ok {name : String} {bits : Nat} {v : Option Int} :
    requireWidth name bits v = .ok () ↔ ∀ n ∈ v, n ≤ 2 ^ bits - 1 := by
  cases v with
  | none => simp [requireWidth]
  | some n =>
    rw [requireWidth]
    split_ifs with h
    · exact ⟨nofun, fun hle => absurd (hle n rfl) (not_le.mpr h)⟩
    · exact ⟨fun _ m hm => Option.mem_some_iff.mp hm ▸ not_lt.mp h, fun _ => rfl⟩

theorem requireReceivedAt_eq_ok {v : Option Float64} :
    requireReceivedAt v = .ok () ↔ ∀ x ∈ v, x.isFinite = true ∧ x.lt .zero = false := by
  cases v with
  | none => simp [requireReceivedAt]
  | some x =>
    rw [requireReceivedAt]
    simp only [Option.mem_some_iff, forall_eq']
    split_ifs with h
    · exact ⟨(nomatch ·), fun hx => by simp [hx] at h⟩
    · exact ⟨fun _ => by simpa [not_or] using h, fun _ => rfl⟩

theorem check_eq_ok {e : TimelineData} : e.check = .ok () ↔ e.Valid := by
  have hvisible : (∃ v, validateNonEmptyString "event_type" (.str e.eventType) = .ok v) ↔ IsVisible e.eventType := by
    constructor
    · rintro ⟨v, hv⟩
      rw [validateNonEmptyString_eq_ok, Json.str.injEq] at hv
      rw [hv]
      exact ⟨v.notBlank, v.noNul⟩
    · rintro ⟨hb, hn⟩
      exact ⟨⟨_, hb, hn⟩, validateNonEmptyString_eq_ok.mpr rfl⟩
  simp only [check, except_bind_eq_ok]
  constructor
  · rintro ⟨v, hv, ⟨⟩, hr, ⟨⟩, he, ⟨⟩, hs, ⟨⟩, hw, ⟨⟩, hi, ⟨⟩, ht, ⟨⟩, hw', hshape⟩
    rw [requireReceivedAt_eq_ok] at hr
    rw [requireNonNegative_eq_ok] at he hs hi ht
    rw [requireWidth_eq_ok] at hw hw'
    exact ⟨hvisible.mp ⟨v, hv⟩, hr, he, fun n hn => ⟨hs n hn, hw n hn⟩, hi, fun n hn => ⟨ht n hn, hw' n hn⟩, hshape⟩
  · intro h
    obtain ⟨v, hv⟩ := hvisible.mpr h.eventType
    exact ⟨v, hv, (), requireReceivedAt_eq_ok.mpr h.receivedAt, (), requireNonNegative_eq_ok.mpr h.elapsedNs,
      (), requireNonNegative_eq_ok.mpr fun n hn => (h.packetSequence n hn).1,
      (), requireWidth_eq_ok.mpr fun n hn => (h.packetSequence n hn).2,
      (), requireNonNegative_eq_ok.mpr h.packetIndex,
      (), requireNonNegative_eq_ok.mpr fun n hn => (h.telemetryTimestampMs n hn).1,
      (), requireWidth_eq_ok.mpr fun n hn => (h.telemetryTimestampMs n hn).2, h.shape⟩

end TimelineData

structure TimelineEntry extends TimelineData where
  attributes : Attributes
  valid : toTimelineData.Valid

namespace TimelineEntry

instance : DecidableEq TimelineEntry := fun a b =>
  decidable_of_iff (a.toTimelineData = b.toTimelineData ∧ a.attributes = b.attributes) (by
    cases a; cases b; simp)

def new (data : TimelineData) (attributes : Json) : Result TimelineEntry :=
  match h : data.check with
  | .error e => .error e
  | .ok () => do
    let attributes ← validateAttributes attributes
    return ⟨data, attributes, TimelineData.check_eq_ok.mp h⟩

theorem new_ok {data : TimelineData} (h : data.Valid) {j : Json} {attributes : Attributes}
    (ha : validateAttributes j = .ok attributes) : new data j = .ok ⟨data, attributes, h⟩ := by
  unfold new
  split
  · rename_i e he
    rw [TimelineData.check_eq_ok.mpr h] at he
    cases he
  · rw [ha]
    rfl

def sortKey (e : TimelineEntry) : Nat ×ₗ Nat := presentationKey e.lane e.sourceIndex

end TimelineEntry

/-! ### Diagnostics -/

structure DiagnosticData where
  code : DiagnosticCode
  severity : DiagnosticSeverity
  message : String
  lane : Option EvidenceLane := none
  sourceIndex : Option Nat := none
  relatedLane : Option EvidenceLane := none
  relatedSourceIndices : List Nat := []
deriving DecidableEq

namespace DiagnosticData

/-- The checks of `Diagnostic.__post_init__`. -/
def check (d : DiagnosticData) : Result Unit := do
  let _ ← validateNonEmptyString "message" (.str d.message)
  if d.sourceIndex ≠ none ∧ d.lane = none then .error (valueError "source_index requires a lane")
  else if sortedSet d.relatedSourceIndices ≠ d.relatedSourceIndices then
    .error (valueError "related_source_indices must be unique and sorted")
  else if d.relatedSourceIndices ≠ [] ∧ d.relatedLane = none ∧ d.lane = none then
    .error (valueError "related_source_indices require related_lane when lane is absent")
  else if d.relatedLane ≠ none ∧ d.relatedSourceIndices = [] then
    .error (valueError "related_lane requires related_source_indices")
  else .ok ()

/-- The related lane is the diagnostic's own unless another is given. -/
def withRelatedLane (d : DiagnosticData) : DiagnosticData :=
  if d.relatedSourceIndices ≠ [] ∧ d.relatedLane = none then { d with relatedLane := d.lane } else d

/-- What a diagnostic satisfies. -/
structure Valid (d : DiagnosticData) : Prop where
  message : IsVisible d.message
  lane : d.lane = none → d.sourceIndex = none
  ordered : d.relatedSourceIndices.Pairwise (· < ·)
  related : d.relatedLane = none ↔ d.relatedSourceIndices = []

theorem valid_withRelatedLane {d : DiagnosticData} (h : d.check = .ok ()) : d.withRelatedLane.Valid := by
  obtain ⟨v, hv, h⟩ := except_bind_eq_ok.mp h
  rw [validateNonEmptyString_eq_ok, Json.str.injEq] at hv
  have hmessage : IsVisible d.message := hv ▸ ⟨v.notBlank, v.noNul⟩
  split_ifs at h with hlane hordered habsent hempty
  have hlane' : d.lane = none → d.sourceIndex = none := fun hn => not_not.mp fun hs => hlane ⟨hs, hn⟩
  have hordered' := sortedSet_eq_self.mp (not_not.mp hordered)
  unfold withRelatedLane
  split_ifs with hdefault
  · refine ⟨hmessage, hlane', hordered', fun hn => absurd ⟨hdefault.1, hdefault.2, hn⟩ habsent, fun hn => ?_⟩
    exact absurd hn hdefault.1
  · refine ⟨hmessage, hlane', hordered', fun hn => ?_, fun hn => ?_⟩
    · exact not_not.mp fun hne => hdefault ⟨hne, hn⟩
    · exact not_not.mp fun hne => hempty ⟨hne, hn⟩

theorem check_of_valid {d : DiagnosticData} (h : d.Valid) : d.check = .ok () ∧ d.withRelatedLane = d := by
  constructor
  · refine except_bind_eq_ok.mpr ⟨⟨d.message, h.message.1, h.message.2⟩, validateNonEmptyString_eq_ok.mpr rfl, ?_⟩
    rw [if_neg fun hs => hs.1 (h.lane hs.2), if_neg (not_not.mpr (sortedSet_eq_self.mpr h.ordered)),
      if_neg fun hr => hr.1 (h.related.mp hr.2.1), if_neg fun hr => hr.1 (h.related.mpr hr.2)]
  · exact if_neg fun hr => hr.1 (h.related.mp hr.2)

end DiagnosticData

/-- One deterministic operator-facing diagnostic. -/
structure Diagnostic extends DiagnosticData where
  valid : toDiagnosticData.Valid

namespace Diagnostic

instance : DecidableEq Diagnostic := fun a b =>
  decidable_of_iff (a.toDiagnosticData = b.toDiagnosticData) (by cases a; cases b; simp)

def new (data : DiagnosticData) : Result Diagnostic :=
  match h : data.check with
  | .error e => .error e
  | .ok () => .ok ⟨data.withRelatedLane, DiagnosticData.valid_withRelatedLane h⟩

theorem new_ok {data : DiagnosticData} (h : data.Valid) : new data = .ok ⟨data, h⟩ := by
  obtain ⟨hcheck, hsame⟩ := DiagnosticData.check_of_valid h
  unfold new
  split
  · rename_i e he
    rw [hcheck] at he
    cases he
  · simp only [hsame]

theorem mapM_new_ok {datas : List DiagnosticData} (h : ∀ d ∈ datas, d.Valid) :
    ∃ ds, datas.mapM new = .ok ds ∧ ds.map Diagnostic.toDiagnosticData = datas := by
  induction datas with
  | nil => exact ⟨[], rfl, rfl⟩
  | cons d datas ih =>
    obtain ⟨ds, hds, hmap⟩ := ih fun d' hd' => h d' (List.mem_cons_of_mem _ hd')
    have hd := h d (List.mem_cons_self ..)
    refine ⟨⟨d, hd⟩ :: ds, except_mapM_eq_ok.mpr (.cons (new_ok hd) (except_mapM_eq_ok.mp hds)), ?_⟩
    rw [List.map_cons, hmap]

/-- The rank of an optional lane; no lane comes last. -/
def laneRank : Option EvidenceLane → Nat
  | none => LANE_PRECEDENCE.length
  | some lane => lane.rank

def sortKey (d : Diagnostic) : Nat ×ₗ Int ×ₗ Nat ×ₗ String ×ₗ Nat ×ₗ List Nat ×ₗ String :=
  toLex (laneRank d.lane, toLex (match d.sourceIndex with | none => -1 | some i => (i : Int),
    toLex (d.severity.rank, toLex (d.code.value, toLex (laneRank d.relatedLane,
      toLex (d.relatedSourceIndices, d.message))))))

end Diagnostic

/-! ### The session -/

/-- Complete immutable inspection model for the three evidence lanes. -/
structure NormalizedSession where
  sources : List LaneSummary
  timeline : List TimelineEntry
  diagnostics : List Diagnostic
  lanes : sources.map (fun summary => summary.source.lane) = LANE_PRECEDENCE
  timeline_ordered : InOrder TimelineEntry.sortKey timeline
  diagnostics_ordered : InOrder Diagnostic.sortKey diagnostics

namespace NormalizedSession

def new (sources : List LaneSummary) (timeline : List TimelineEntry) (diagnostics : List Diagnostic) :
    Result NormalizedSession :=
  if hlanes : sources.map (fun summary => summary.source.lane) = LANE_PRECEDENCE then
    let availableLanes := sources.map fun summary => summary.source.lane
    if htimeline : sortedBy TimelineEntry.sortKey timeline = timeline then
      if hdiagnostics : sortedBy Diagnostic.sortKey diagnostics = diagnostics then
        if timeline.any fun entry => entry.lane ∉ availableLanes then
          .error (valueError "timeline entry references an unavailable lane")
        else if diagnostics.any fun d => d.lane.any fun lane => lane ∉ availableLanes then
          .error (valueError "diagnostic references an unavailable lane")
        else if diagnostics.any fun d => d.relatedLane.any fun lane => lane ∉ availableLanes then
          .error (valueError "diagnostic related_lane references an unavailable lane")
        else .ok ⟨sources, timeline, diagnostics, hlanes, sortedBy_eq_self.mp htimeline, sortedBy_eq_self.mp hdiagnostics⟩
      else .error (valueError "diagnostics must use deterministic order")
    else .error (valueError "timeline entries must use deterministic presentation order")
  else .error (valueError "sources must contain telemetry, alarm, and link exactly once in order")

theorem mem_lanePrecedence (lane : EvidenceLane) : lane ∈ LANE_PRECEDENCE := by
  cases lane <;> decide

/-- Ordered entries and diagnostics of the three lanes make a session. -/
theorem new_ok {sources : List LaneSummary} {timeline : List TimelineEntry} {diagnostics : List Diagnostic}
    (hlanes : sources.map (fun summary => summary.source.lane) = LANE_PRECEDENCE)
    (ht : InOrder TimelineEntry.sortKey timeline) (hd : InOrder Diagnostic.sortKey diagnostics) :
    new sources timeline diagnostics = .ok ⟨sources, timeline, diagnostics, hlanes, ht, hd⟩ := by
  have hmem (lane : EvidenceLane) : (decide (lane ∉ LANE_PRECEDENCE)) = false := by
    simp [mem_lanePrecedence lane]
  rw [new, dif_pos hlanes]
  simp only [hlanes, hmem]
  rw [dif_pos ht.sortedBy_eq, dif_pos hd.sortedBy_eq]
  simp

def hasIncompleteSources (s : NormalizedSession) : Bool :=
  s.sources.any fun summary => summary.source.completeness = .INCOMPLETE

def hasIncompatibilities (s : NormalizedSession) : Bool := s.diagnostics.any fun d => d.severity = .ERROR

def isComplete (s : NormalizedSession) : Bool := !s.hasIncompleteSources

def isCompatible (s : NormalizedSession) : Bool := !s.hasIncompatibilities

end NormalizedSession

end OrbitOps.Session
